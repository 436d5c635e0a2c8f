import ChartTemplate.Scale.Basic

/-!
# Axes

An `Axis` holds the settings with which the values of a scale are drawn along a line. The scale is
named, and looked up when the axis is drawn.
-/

namespace ChartTemplate

/-- The side on which an axis is drawn. -/
inductive Orient where
  /-- A horizontal axis with labels above it. -/
  | top
  /-- A vertical axis with labels to its right. -/
  | right
  /-- A horizontal axis with labels below it. -/
  | bottom
  /-- A vertical axis with labels to its left. -/
  | left
deriving DecidableEq, Repr

namespace Orient

/-- The sides with the names of the helpers that make such axes. -/
def helperNames : List (Orient × String) :=
  [(top, "axisTop"), (right, "axisRight"), (bottom, "axisBottom"), (left, "axisLeft")]

def ofHelperName? (name : String) : Option Orient :=
  (helperNames.find? fun p => p.2 == name).map Prod.fst

def isVertical : Orient → Bool
  | left | right => true
  | top | bottom => false

/-- The direction, one or minus one, in which ticks point. -/
def direction : Orient → Float
  | top | left => -1
  | right | bottom => 1

end Orient

/-- A method that changes a setting of an axis. -/
inductive AxisMethod where
  | ticks | tickArguments | tickValues | tickFormat | tickSize | tickSizeInner | tickSizeOuter
  | tickPadding | offset
deriving DecidableEq, Repr

namespace AxisMethod

def names : List (AxisMethod × String) :=
  [(ticks, "ticks"), (tickArguments, "tickArguments"), (tickValues, "tickValues"),
    (tickFormat, "tickFormat"), (tickSize, "tickSize"), (tickSizeInner, "tickSizeInner"),
    (tickSizeOuter, "tickSizeOuter"), (tickPadding, "tickPadding"), (offset, "offset")]

def ofName? (name : String) : Option AxisMethod :=
  (names.find? fun p => p.2 == name).map Prod.fst

end AxisMethod

/-- Why a setting is refused. -/
inductive AxisError where
  | format (e : FormatError)
  | tickCount (e : TickCountError)
deriving DecidableEq

def AxisError.message : AxisError → String
  | format e => e.message
  | tickCount e => e.message

structure Axis where
  /-- The side on which it is drawn. -/
  orient : Orient
  scale : String
  /-- The number of ticks and the format of labels, as far as they are given. -/
  tickArguments : List Value
  /-- The values to draw in place of the scale's own. -/
  tickValues : Option (List Value)
  /-- The format of labels in place of the scale's own. -/
  tickFormat : Option NumberFormat
  /-- The length of ticks. -/
  tickSizeInner : Float
  /-- The length of the ticks at the ends of the line. -/
  tickSizeOuter : Float
  /-- The distance of labels from ticks. -/
  tickPadding : Float
  /-- The shift of the line. -/
  offset : Float

namespace Axis

def make (orient : Orient) (scale : String) : Axis where
  orient
  scale
  tickArguments := []
  tickValues := none
  tickFormat := none
  tickSizeInner := 6
  tickSizeOuter := 6
  tickPadding := 3
  offset := 0.5

/-- Checks the number of ticks that a list of tick arguments asks for. -/
def checkCount (args : List Value) : Except AxisError Unit :=
  match tickCount (args.headD .undefined) with
  | .ok _ => pure ()
  | .error e => throw (.tickCount e)

def configure (a : Axis) (m : AxisMethod) (args : List Value) : Except AxisError Axis := do
  let first := args.headD .undefined
  let number (current : Float) : Float := (args.head?.map Value.toNumber).getD current
  match m with
  | .ticks =>
    checkCount args
    return { a with tickArguments := args }
  | .tickArguments =>
    let args := first.items?.getD []
    checkCount args
    return { a with tickArguments := args }
  | .tickValues => return { a with tickValues := first.items? }
  | .tickFormat =>
    match first.text? with
    | none => return { a with tickFormat := none }
    | some s =>
      match NumberFormat.ofText s with
      | .ok f => return { a with tickFormat := some f }
      | .error e => throw (.format e)
  | .tickSize =>
    let size := number a.tickSizeInner
    return { a with tickSizeInner := size, tickSizeOuter := size }
  | .tickSizeInner => return { a with tickSizeInner := number a.tickSizeInner }
  | .tickSizeOuter => return { a with tickSizeOuter := number a.tickSizeOuter }
  | .tickPadding => return { a with tickPadding := number a.tickPadding }
  | .offset => return { a with offset := number a.offset }

/-- The number of ticks. The tick arguments were checked when they were set. -/
def count (a : Axis) : Float :=
  match tickCount (a.tickArguments.headD .undefined) with
  | .ok count => count
  | .error _ => notANumber

def values (a : Axis) (s : Scale) : Except Fault (List Value) :=
  match a.tickValues with
  | some vs => pure vs
  | none => s.axisValues a.count

def labels (a : Axis) (s : Scale) : TickLabels :=
  match a.tickFormat with
  | some f => .number f
  | none => s.tickLabels a.count (a.tickArguments[1]?.bind Value.text?)

end Axis

end ChartTemplate
