import ChartTemplate.Scale.Kind

/-!
# Quantize and threshold scales

Both map a number to the entry of the range whose number counts the thresholds that are at most it. A
quantize scale computes its thresholds from its domain, a threshold scale has them as its domain.
-/

namespace ChartTemplate

/-- The entry of a range behind the thresholds that are at most `x`. -/
def stepValue? (thresholds : List Float) (range : List Value) (x : Float) : Option Value :=
  range[(thresholds.filter fun t => t ≤ x).length]?

structure Quantize where
  /-- The lower end of the domain. -/
  low : Float
  /-- The upper end of the domain. -/
  high : Float
  /-- The entries of the range. -/
  range : List Value
  /-- The bounds between the entries. -/
  thresholds : List Float
  /-- The result for what is not a number. -/
  unknown : Value

namespace Quantize

/-- The bounds of equal segments of a domain, one for each entry of the range. -/
def bounds (low high : Float) (range : List Value) : List Float :=
  let n := Float.ofNat (range.length - 1)
  (countUp (range.length - 1)).map fun i => ((i + 1) * high - (i - n) * low) / (n + 1)

/-- Computes the thresholds anew. -/
def rescale (s : Quantize) : Quantize :=
  { s with thresholds := bounds s.low s.high s.range }

/-- The scale with its default domain and range. -/
def default : Quantize :=
  rescale { low := 0, high := 1, range := [.number 0, .number 1], thresholds := [],
            unknown := .undefined }

/-- The value of the range for a value of the domain. -/
def apply (s : Quantize) (v : Value) : Value :=
  let x := v.toNumber
  if x.isNaN then s.unknown else (stepValue? s.thresholds s.range x).getD s.unknown

/-- The ends of the segment of a value of the range. -/
def invertExtent (s : Quantize) (y : Value) : Value :=
  match s.range.findIdx? fun r => r.strictEq y with
  | none => numberArray [notANumber, notANumber]
  | some i =>
    let n := s.thresholds.length
    if i = 0 then numberArray [s.low, s.thresholds.headD s.high]
    else if n ≤ i then numberArray [s.thresholds.getLastD s.low, s.high]
    else numberArray [s.thresholds.getD (i - 1) notANumber, s.thresholds.getD i notANumber]

/-- The scale with the two numbers of an array as the ends of its domain; any other array is
ignored. -/
def setDomain (s : Quantize) (v : Value) : Quantize :=
  match numbersOf v with
  | [a, b] => { s with low := a, high := b }
  | _ => s

/-- The scale with the ends of its domain moved out to round numbers. -/
def nice (s : Quantize) (count : Float) : Quantize :=
  match niceLinear [s.low, s.high] count with
  | [a, b] => rescale { s with low := a, high := b }
  | _ => s

def call (s : Quantize) (m : ScaleMethod) (args : List Value) :
    Except ScaleError (Quantize × Value) := do
  match m, args.head? with
  | .domain, some v => return ((s.setDomain v).rescale, .undefined)
  | .domain, none => return (s, numberArray [s.low, s.high])
  | .range, some v => return (rescale { s with range := v.items?.getD [] }, .undefined)
  | .range, none => return (s, .array s.range)
  | .unknown, some v => return ({ s with unknown := v }, .undefined)
  | .unknown, none => return (s, s.unknown)
  | .thresholds, _ => return (s, numberArray s.thresholds)
  | .invertExtent, some v => return (s, s.invertExtent v)
  | .nice, _ =>
    let count ← countArgument args
    return (s.nice count, .undefined)
  | .ticks, _ =>
    let count ← countArgument args
    return (s, numberArray (ticks s.low s.high count))
  | _, _ => throw (.unsupported m .quantize)

end Quantize

structure Threshold where
  /-- The thresholds. -/
  domain : List Float
  /-- The entries of the range. -/
  range : List Value
  /-- The result for what is not a number. -/
  unknown : Value

namespace Threshold

/-- The scale with its default domain and range. -/
def default : Threshold :=
  { domain := [0.5], range := [.number 0, .number 1], unknown := .undefined }

/-- The value of the range for a value of the domain. Only as many thresholds count as there are
entries behind them. -/
def apply (s : Threshold) (v : Value) : Value :=
  let x := v.toNumber
  if x.isNaN then s.unknown
  else (stepValue? (s.domain.take (s.range.length - 1)) s.range x).getD s.unknown

/-- The thresholds around a value of the range, missing where there is none. -/
def invertExtent (s : Threshold) (y : Value) : Value :=
  let bound (i : Option Nat) : Value := ((i.bind fun i => s.domain[i]?).map Value.number).getD .undefined
  let i := s.range.findIdx? fun r => r.strictEq y
  .array [bound (i.bind fun i => if i = 0 then none else some (i - 1)), bound i]

def call (s : Threshold) (m : ScaleMethod) (args : List Value) :
    Except ScaleError (Threshold × Value) :=
  match m, args.head? with
  | .domain, some v => pure ({ s with domain := numbersOf v }, .undefined)
  | .domain, none => pure (s, numberArray s.domain)
  | .range, some v => pure ({ s with range := v.items?.getD [] }, .undefined)
  | .range, none => pure (s, .array s.range)
  | .unknown, some v => pure ({ s with unknown := v }, .undefined)
  | .unknown, none => pure (s, s.unknown)
  | .invertExtent, some v => pure (s, s.invertExtent v)
  | _, _ => throw (.unsupported m .threshold)

end Threshold

end ChartTemplate
