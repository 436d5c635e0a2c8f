import ChartTemplate.Numeric.Logarithm
import ChartTemplate.Ticks.Time

/-!
# Tick labels

`TickLabels` is how an axis makes texts of its tick values.
-/

namespace ChartTemplate

/-- How tick values become texts. -/
inductive TickLabels where
  | number (format : NumberFormat)
  /-- As numbers, where the value is within `limit` of a power of the base; the others have empty
  labels. Values below zero are reflected first. -/
  | log (format : NumberFormat) (base limit : Float) (reflect : Bool)
  /-- As instants, by the coarsest unit of which they are not a boundary. -/
  | time
  /-- As instants, with a pattern. -/
  | date (pattern : DatePattern)
  | text
deriving DecidableEq

namespace TickLabels

/-- How far, as a factor, a value lies above the power of the base nearest to it; below the power it
is counted from the one before. -/
def distance (base x : Float) (reflect : Bool) : Float :=
  let power := powBase base (round (logBase base (if reflect then -x else x)))
  let i := x / (if reflect then -power else power)
  if i * base < base - 0.5 then i * base else i

def label (labels : TickLabels) (v : Value) : Except Fault String :=
  match labels with
  | number format => format.format v.toNumber
  | log format base limit reflect =>
    let x := v.toNumber
    if distance base x reflect ≤ limit then format.format x else pure ""
  | time => pure ((v.toInstant?.map timeLabel).getD v.toOutput)
  | date pattern => pure ((v.toInstant?.map pattern.format).getD v.toOutput)
  | text => pure (match v with
    | .number x => numberText x
    | v => v.toOutput)

end TickLabels

end ChartTemplate
