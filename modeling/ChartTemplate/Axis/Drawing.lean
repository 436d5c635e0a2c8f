import ChartTemplate.Axis.Basic
import ChartTemplate.Text.Escape

/-!
# Drawing axes

`Axis.render` gives the markup of an axis: the path of its line, then one group for each value. All
that data decide is the text of numbers, or escaped.
-/

namespace ChartTemplate

namespace Axis

/-- The commands of the path of the line between two numbers of the range. -/
def pathText (a : Axis) (range0 range1 : Float) : String :=
  let n := numberText
  let outer := a.orient.direction * a.tickSizeOuter
  let hasOuter := !(a.tickSizeOuter == 0)
  if a.orient.isVertical then
    if hasOuter then
      "M" ++ n outer ++ "," ++ n range0 ++ "H" ++ n a.offset ++ "V" ++ n range1 ++ "H" ++ n outer
    else "M" ++ n a.offset ++ "," ++ n range0 ++ "V" ++ n range1
  else if hasOuter then
    "M" ++ n range0 ++ "," ++ n outer ++ "V" ++ n a.offset ++ "H" ++ n range1 ++ "V" ++ n outer
  else "M" ++ n range0 ++ "," ++ n a.offset ++ "H" ++ n range1

def lineMarkup (path : String) : String :=
  "<path class=\"domain\" stroke=\"currentColor\" d=\"" ++ path ++ "\"></path>"

/-- How far the middle of a band lies from its start. -/
def center (a : Axis) (s : Scale) : Float :=
  if s.bandwidth > 0 then
    let half := maxNumber (s.bandwidth - a.offset * 2) 0 / 2
    if s.isRounded then round half else half
  else 0

/-- The shift of labels against the line of text. -/
def labelShift : Orient → String
  | .top => "0em"
  | .bottom => "0.71em"
  | .left | .right => "0.32em"

/-- The markup of a value at a position, with a label that is escaped already. -/
def tickMarkup (a : Axis) (position : Float) (label : String) : String :=
  let vertical := a.orient.isVertical
  let k := a.orient.direction
  let coordinate := if vertical then "x" else "y"
  let spacing := maxNumber a.tickSizeInner 0 + a.tickPadding
  let transform :=
    if vertical then "translate(0," ++ numberText position ++ ")"
    else "translate(" ++ numberText position ++ ",0)"
  "<g class=\"tick\" opacity=\"1\" transform=\"" ++ transform ++
    "\"><line stroke=\"currentColor\" " ++ coordinate ++ "2=\"" ++ numberText (k * a.tickSizeInner) ++
    "\"></line><text fill=\"currentColor\" " ++ coordinate ++ "=\"" ++ numberText (k * spacing) ++
    "\" dy=\"" ++ labelShift a.orient ++ "\">" ++ label ++ "</text></g>"

/-- The markup of values in turn. The scale is a copy that positions alone may extend. -/
def ticksMarkup (a : Axis) (labels : TickLabels) (center : Float) (s : Scale) :
    List Value → Except Fault (List String)
  | [] => pure []
  | v :: vs => do
    let (s, y) ← s.apply v
    let label ← labels.label v
    let rest ← ticksMarkup a labels center s vs
    pure (tickMarkup a (y.toNumber + center + a.offset) (escapeMarkup label) :: rest)

def render (a : Axis) (s : Scale) : Except Fault String := do
  let values ← a.values s
  let (r0, r1) := s.rangeExtent
  let ticks ← ticksMarkup a (a.labels s) (a.center s) s values
  return lineMarkup (a.pathText (r0 + a.offset) (r1 + a.offset)) ++ String.join ticks

end Axis

end ChartTemplate
