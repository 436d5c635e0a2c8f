import ChartTemplate.Format.NumberFormat
import ChartTemplate.Value.Basic

/-!
# Round tick values

Ticks are multiples of one, two or five times a power of ten. `tickSpec` finds the step and the first
and last multiple within a span; `ticks`, `tickIncrement`, `tickStep` and `niceLinear` are read off
it.
-/

namespace ChartTemplate

/-- The greatest number of ticks that may be asked for. -/
def maxTickCount : Float := 1000000

/-- A number of ticks that is infinite or too great. -/
structure TickCountError where
  /-- The refused number. -/
  count : Float
deriving DecidableEq

def TickCountError.message (e : TickCountError) : String :=
  "Invalid tick count " ++ numberText e.count

/-- The requested number of ticks, ten when there is none. NaN is let through and yields no ticks. -/
def tickCount (v : Value) : Except TickCountError Float :=
  let count := if v.isNullish then 10 else v.toNumber
  if count.isNaN || (count.isFinite && count ≤ maxTickCount) then .ok count else .error ⟨count⟩

/-- The ticks of a span: the first and last of them, counted in steps, and the step. A negative step
`-k` stands for `1 / k`. -/
structure TickSpec where
  /-- The number of the first tick. -/
  first : Float
  /-- The number of the last tick. -/
  last : Float
  /-- The step, or minus its reciprocal. -/
  step : Float
deriving DecidableEq

/-- The least of one, two, five and ten that a step exceeds, on a logarithmic scale. -/
def stepFactor (error : Float) : Float :=
  if error ≥ 7.0710678118654755 then 10
  else if error ≥ 3.1622776601683795 then 5
  else if error ≥ 1.4142135623730951 then 2
  else 1

/-- The ticks of a span for about `count` of them, perhaps none. -/
def tickSpecOnce (start stop count : Float) : TickSpec :=
  let step := (stop - start) / maxNumber count 0
  let power := floor step.log10
  let factor := stepFactor (step / Float.pow 10 power)
  if power < 0 then
    let k := Float.pow 10 (-power) / factor
    let i := round (start * k)
    let j := round (stop * k)
    ⟨if i / k < start then i + 1 else i, if j / k > stop then j - 1 else j, -k⟩
  else
    let k := Float.pow 10 power * factor
    let i := round (start / k)
    let j := round (stop / k)
    ⟨if i * k < start then i + 1 else i, if j * k > stop then j - 1 else j, k⟩

/-- The ticks of a span for about `count` of them. A count between a half and two that gives no tick
is doubled, at most `fuel` times; after two doublings it is past two. -/
def tickSpecFrom : Nat → Float → Float → Float → TickSpec
  | 0, start, stop, count => tickSpecOnce start stop count
  | fuel + 1, start, stop, count =>
    let s := tickSpecOnce start stop count
    if s.last < s.first && 0.5 ≤ count && count < 2 then tickSpecFrom fuel start stop (count * 2)
    else s

/-- The ticks of a span for about `count` of them. -/
def tickSpec (start stop count : Float) : TickSpec :=
  tickSpecFrom 2 start stop count

def TickSpec.value (s : TickSpec) (k : Float) : Float :=
  if s.step < 0 then k / -s.step else k * s.step

/-- The numbers `0 .. n - 1` as floats. -/
def countUp (n : Nat) : List Float :=
  (List.range n).map Float.ofNat

/-- About `count` round values from `start` to `stop`. -/
def ticks (start stop count : Float) : List Float :=
  if count.isNaN || count ≤ 0 || start.isNaN || stop.isNaN then []
  else if start == stop then [start]
  else
    let reverse := stop < start
    let s := if reverse then tickSpec stop start count else tickSpec start stop count
    if s.last.isNaN || s.first.isNaN || s.last < s.first || maxTickCount * 2 ≤ s.last - s.first then []
    else
      let n := (truncInt (s.last - s.first)).toNat + 1
      (countUp n).map fun i => s.value (if reverse then s.last - i else s.first + i)

/-- The distance of ticks, or minus its reciprocal. -/
def tickIncrement (start stop count : Float) : Float :=
  (tickSpec start stop count).step

/-- The signed distance of ticks from `start` to `stop`. -/
def tickStep (start stop count : Float) : Float :=
  let reverse := stop < start
  let inc := if reverse then tickIncrement stop start count else tickIncrement start stop count
  let step := if inc < 0 then 1 / -inc else inc
  if reverse then -step else step

/-- Replaces the first and last of a list of at least two numbers, given which of them is lower. -/
def setEnds (xs : List Float) (descending : Bool) (low high : Float) : List Float :=
  let last := xs.length - 1
  if descending then (xs.set last low).set 0 high else (xs.set 0 low).set last high

/-- Moves the ends of a span out to round values until their distance stays, in `fuel` rounds; if it
does not come to rest there is no result. -/
def niceEnds? (count : Float) : Nat → Option Float → Float → Float → Option (Float × Float)
  | 0, _, _, _ => none
  | fuel + 1, previous, start, stop =>
    let step := tickIncrement start stop count
    if (previous.map (· == step)).getD false then some (start, stop)
    else if step > 0 then
      niceEnds? count fuel (some step) (floor (start / step) * step) (ceil (stop / step) * step)
    else if step < 0 then
      niceEnds? count fuel (some step) (ceil (start * step) / step) (floor (stop * step) / step)
    else none

/-- Moves the ends of a domain out to round values. -/
def niceLinear (domain : List Float) (count : Float) : List Float :=
  match domain with
  | x :: y :: rest =>
    let last := (y :: rest).getLastD y
    let descending := last < x
    let (low, high) := if descending then (last, x) else (x, last)
    match niceEnds? count 10 none low high with
    | some (low, high) => setEnds domain descending low high
    | none => domain
  | _ => domain

/-- Moves the ends of a domain with functions for the lower and the upper end. -/
def niceWith {m : Type → Type} [Monad m] (domain : List Float) (down up : Float → m Float) :
    m (List Float) :=
  match domain with
  | x :: y :: rest => do
    let last := (y :: rest).getLastD y
    let descending := last < x
    let (low, high) := if descending then (last, x) else (x, last)
    let low ← down low
    let high ← up high
    pure (setEnds domain descending low high)
  | _ => pure domain

/-- The number format that suits ticks of a span. A precision that the specifier leaves open is
chosen so that neighbouring ticks differ. -/
def tickFormat (start stop count : Float) (specifier : Option String) : NumberFormat :=
  let step := tickStep start stop count
  let spec := match specifier.map FormatSpec.parse with
    | some (.ok spec) => spec
    | _ => { comma := true, kind := some 'f' }
  let top := maxNumber start.abs stop.abs
  let withPrecision (p : Nat) : FormatSpec := { spec with precision := some (spec.precision.getD p) }
  match spec.kind with
  | some 's' => NumberFormat.withThousands (withPrecision (precisionPrefix step top)) top
  | some 'e' => NumberFormat.ofSpec (withPrecision (precisionRound step top - 1))
  | none | some 'g' | some 'p' | some 'r' => NumberFormat.ofSpec (withPrecision (precisionRound step top))
  | some '%' => NumberFormat.ofSpec (withPrecision (precisionFixed step - 2))
  | some 'f' => NumberFormat.ofSpec (withPrecision (precisionFixed step))
  | _ => NumberFormat.ofSpec spec

end ChartTemplate
