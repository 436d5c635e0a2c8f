import ChartTemplate.Helper.Name
import ChartTemplate.Helper.Registry
import ChartTemplate.Host
import ChartTemplate.Table.Lists

/-!
# Calling helpers

`Helper.call` runs a helper on the registry and host of a rendering. Misuse that the registry refuses
becomes text in the output; three kinds of misuse end the rendering with a `HelperError`. A call that is
cut off leaves what `Helper.left` says: formats are kept before they write.
-/

namespace ChartTemplate

/-- Why a helper call ends the rendering. -/
inductive HelperError where
  /-- A helper for lists was given something else. -/
  | notArray (helper : Helper) (found : String)
  /-- A method was named that the helper does not have. -/
  | unknownMethod (helper : Helper) (method : String)
  | tickCount (e : TickCountError)
deriving DecidableEq

def HelperError.message : HelperError → String
  | notArray helper found => helper.name ++ " expects an array, got " ++ found
  | unknownMethod helper method => helper.name ++ ": unknown method \"" ++ method ++ "\""
  | tickCount e => e.message

/-- What helper calls change. -/
structure HelperState (σ : Type := Palette) where
  registry : Registry
  host : σ

section

variable {σ : Type} [HostServices σ]

/-- The mark that selects the row of a number; missing if there is no such row. -/
def Table.selection (t : Table) (host : σ) (index : Value) : Value :=
  match index with
  | .number x =>
    if fract x == 0 && 0 ≤ x then
      match t.rows[(truncInt x).toNat]? with
      | some row => .text (HostServices.selectionMark host (truncInt x).toNat row)
      | none => .undefined
    else .undefined
  | _ => .undefined

/-- The outcome of a registry operation as that of a helper call: what was refused becomes its text,
but too great a number of ticks ends the rendering. -/
def HelperState.settle (s : HelperState σ) (outcome : Checked RegistryError (Registry × Value)) :
    Checked HelperError (HelperState σ × Value) := do
  match ← (outcome.run : Except Fault _) with
  | .ok (r, v) => return ({ s with registry := r }, v)
  | .error (.tickCount e) => throw (.tickCount e)
  | .error (.scale (.tickCount e)) => throw (.tickCount e)
  | .error e => return (s, .text e.message)

namespace Helper

/-- The outcome of a registry operation without a result. -/
def silent (outcome : Except RegistryError Registry) : Checked RegistryError (Registry × Value) := do
  let r ← outcome
  return (r, .undefined)

/-- The items of an argument that must be an array. -/
def itemsOf (h : Helper) (v : Value) : Except HelperError (List Value) :=
  match v with
  | .array items => pure items
  | v => throw (.notArray h v.typeName)

def methodOf {α : Type} (h : Helper) (name : String) (m : Option α) : Except HelperError α :=
  match m with
  | some m => pure m
  | none => throw (.unknownMethod h name)

/-- Calls a helper: the state afterwards, and the result. -/
def call (h : Helper) (table : Table) (s : HelperState σ) (args : List Value)
    (zone : TimeZone := .utc) : Checked HelperError (HelperState σ × Value) := do
  let r := s.registry
  let first := args.getD 0 .undefined
  let second := args.getD 1 .undefined
  match h with
  | format => s.settle (r.format first second)
  | utcFormat => s.settle (r.formatDate zone true first second)
  | timeFormat => s.settle (r.formatDate zone false first second)
  | scale kind => s.settle (silent (r.addScale kind first.toText (args.drop 1)))
  | useScale =>
    match first with
    | .text id => s.settle (r.useScale id second)
    | _ => return (s, .text RegistryError.wrongScaleId.message)
  | getScale =>
    let m ← methodOf h second.toText (ScaleMethod.ofName? second.toText)
    s.settle (r.callScale first.toText m (args.drop 2))
  | setupScale =>
    let m ← methodOf h second.toText (ScaleMethod.ofName? second.toText)
    s.settle do
      let (r, _) ← r.callScale first.toText m (args.drop 2)
      return (r, .undefined)
  | resetScales => return ({ s with registry := { r with scales := [] } }, .undefined)
  | axis orient => s.settle (silent (r.addAxis orient first.toText second.toText))
  | setupAxis =>
    let m ← methodOf h second.toText (AxisMethod.ofName? second.toText)
    s.settle (silent (r.configureAxis first.toText m (args.drop 2)))
  | useAxis =>
    s.settle do
      let v ← r.drawAxis first.toText
      return (r, v)
  | resetAxes => return ({ s with registry := { r with axes := [] } }, .undefined)
  | setVariable => return ({ s with registry := r.setVariable first.toText second }, .undefined)
  | getVariable => return (s, r.getVariable first.toText)
  | array => return (s, .array args)
  | jsonArray => return (s, .text (Value.quotedValues (← itemsOf h (args.getLastD .undefined))))
  | map => return (s, .array ((← itemsOf h first).map fun v => v.get second.toText))
  | min => return (s, Value.least (← itemsOf h first))
  | max => return (s, Value.greatest (← itemsOf h first))
  | mean => return (s, Value.mean (← itemsOf h first))
  | median => return (s, Value.median (← itemsOf h first))
  | sums => return (s, Value.total (← itemsOf h first))
  | filter =>
    let op := (args[2]?.map Value.toText).getD "=="
    return (s, .array ((← itemsOf h first).filter fun v => Value.relates op v second))
  | sum => return (s, first.add second)
  | sub => return (s, .number (first.toNumber - second.toNumber))
  | multiply => return (s, .number (first.toNumber * second.toNumber))
  | divide => return (s, .number (first.toNumber / second.toNumber))
  | math =>
    let f ← methodOf h first.toText (MathFunction.ofName? first.toText)
    return (s, f.eval (args.drop 1))
  | column => return (s, table.columnText first.toText)
  | distinct => return (s, table.distinctText first.toText)
  | select => return (s, table.selectText (args.map Value.toText))
  | useColor =>
    let (host, color) := HostServices.color s.host first.toText
    return ({ s with host }, .text color)
  | useSelection => return (s, table.selection s.host first)
  | useSelectionClear => return (s, .text (HostServices.selectionClearMark s.host))
  | lookup => return (s, first.get second.toText)
  | log => return (s, .undefined)

/-- What a call that is cut off leaves of a state. -/
def left (h : Helper) (s : HelperState σ) (args : List Value) : HelperState σ :=
  let second := args.getD 1 .undefined
  match h with
  | format => { s with registry := s.registry.keepNumberFormat second }
  | utcFormat => { s with registry := s.registry.keepDatePattern true second }
  | timeFormat => { s with registry := s.registry.keepDatePattern false second }
  | _ => s

end Helper

end

end ChartTemplate
