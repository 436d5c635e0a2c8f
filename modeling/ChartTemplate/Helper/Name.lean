import ChartTemplate.Axis.Basic
import ChartTemplate.Value.Arithmetic

/-!
# Helpers

The helpers that a template may call, their names, and the methods that some of them take by name.
-/

namespace ChartTemplate

inductive Helper where
  | format | utcFormat | timeFormat
  | scale (kind : ScaleKind)
  | useScale | getScale | setupScale | resetScales
  | axis (orient : Orient)
  | setupAxis | useAxis | resetAxes
  | setVariable | getVariable
  | array | jsonArray | map | min | max | mean | median | sums | filter
  | sum | sub | multiply | divide | math
  | column | distinct | select
  | useColor | useSelection | useSelectionClear
  | lookup | log
deriving DecidableEq, Repr

namespace Helper

def named : List (Helper × String) :=
  [(format, "format"), (utcFormat, "utcFormat"), (timeFormat, "timeFormat"), (useScale, "useScale"),
    (getScale, "getScale"), (setupScale, "setupScale"), (resetScales, "resetScales"),
    (setupAxis, "setupAxis"), (useAxis, "useAxis"), (resetAxes, "resetAxes"), (setVariable, "var"),
    (getVariable, "val"), (array, "array"), (jsonArray, "jsonArray"), (map, "map"), (min, "min"),
    (max, "max"), (mean, "mean"), (median, "median"), (sums, "sums"), (filter, "filter"),
    (sum, "sum"), (sub, "sub"), (multiply, "multiply"), (divide, "divide"), (math, "math"),
    (column, "column"), (distinct, "distinct"), (select, "select"), (useColor, "useColor"),
    (useSelection, "useSelection"), (useSelectionClear, "useSelectionClear"), (lookup, "lookup"),
    (log, "log")]

/-- The helpers with their names: those of their own, the scales, and the axes. -/
def names : List (Helper × String) :=
  named ++ ScaleKind.helperNames.map (fun p => (scale p.1, p.2)) ++
    Orient.helperNames.map fun p => (axis p.1, p.2)

def ofName? (name : String) : Option Helper :=
  (names.find? fun p => p.2 == name).map Prod.fst

def name (h : Helper) : String :=
  ((names.find? fun p => p.1 = h).map Prod.snd).getD ""

/-- The place of the argument that names a method. -/
def methodPosition? : Helper → Option Nat
  | getScale | setupScale | setupAxis => some 1
  | math => some 0
  | _ => none

/-- Whether a helper knows a method; those that take none accept every name. -/
def acceptsMethod (h : Helper) (method : String) : Bool :=
  match h with
  | getScale | setupScale => (ScaleMethod.ofName? method).isSome
  | setupAxis => (AxisMethod.ofName? method).isSome
  | math => (MathFunction.ofName? method).isSome
  | _ => true

end Helper

end ChartTemplate
