import ChartTemplate.Scale.Kind
import ChartTemplate.Ticks.Label
import ChartTemplate.Value.Interpolation

/-!
# Continuous scales

Linear, logarithmic, power, radial and time scales. A value's number is transformed, placed between
two neighbouring entries of the transformed domain, and interpolated between the entries of the
range at the same places.
-/

namespace ChartTemplate

/-- What a continuous scale does to numbers before it interpolates. -/
inductive Transform where
  /-- Nothing. -/
  | identity
  /-- Takes logarithms; `base` is that of its ticks. -/
  | log (base : Float)
  /-- Takes a power, keeping the sign. -/
  | pow (exponent : Float)
  /-- Nothing to the domain; squares the range. -/
  | radial
  /-- Nothing; the domain holds milliseconds. -/
  | time
deriving DecidableEq

structure Continuous where
  /-- The transform. -/
  transform : Transform
  /-- The entries of the domain. -/
  domain : List Float
  /-- The entries of the range. -/
  range : List Value
  /-- Whether numbers are kept within the domain. -/
  clamp : Bool
  /-- Whether results are rounded. -/
  rounds : Bool
  /-- The result for what is not a number. -/
  unknown : Value

/-- One with the sign of `x`; NaN for NaN. -/
def signum (x : Float) : Float :=
  if x.isNaN then x else if signBit x then -1 else 1

/-- The place of `x` on the way from `a` to `b`; the middle if they coincide. -/
def normalize (a b x : Float) : Float :=
  let span := b - a
  if !(span == 0) then (x - a) / span else 0.5

/-- The least and the greatest of a list, ignoring NaN. -/
def extent (xs : List Float) : Float × Float :=
  xs.foldl (fun e x => (minNumber e.1 x, maxNumber e.2 x)) (infinity, -infinity)

/-- How many entries between the first and the last are at most `x`. -/
def segmentOf (xs : List Float) (x : Float) : Nat :=
  (xs.tail.dropLast.filter fun v => v ≤ x).length

/-- Reverses both lists if the first runs downward. -/
def ascending {α : Type} (xs : List Float) (ys : List α) : List Float × List α :=
  match endsOf? xs with
  | some (a, b) => if b < a then (xs.reverse, ys.reverse) else (xs, ys)
  | none => (xs, ys)

namespace Continuous

/-- The scale of a transform with its default domain and range. -/
def ofTransform (t : Transform) : Continuous where
  transform := t
  domain := match t with
    | .log _ => [1, 10]
    | .time => [946684800000, 946771200000]
    | _ => [0, 1]
  range := [.number 0, .number 1]
  clamp := false
  rounds := false
  unknown := .undefined

def kind (s : Continuous) : ScaleKind :=
  match s.transform with
  | .identity => .linear
  | .log _ => .log
  | .pow _ => .pow
  | .radial => .radial
  | .time => .time

/-- Whether logarithms are taken of negated numbers. -/
def reflect (s : Continuous) : Bool :=
  match s.transform with
  | .log _ => s.domain.head?.any fun x => x < 0
  | _ => false

def forward (s : Continuous) (x : Float) : Float :=
  match s.transform with
  | .log _ => if s.reflect then -(-x).log else x.log
  | .pow exponent => signum x * x.abs.pow exponent
  | _ => x

def backward (s : Continuous) (y : Float) : Float :=
  match s.transform with
  | .log _ => if s.reflect then -(-y).exp else y.exp
  | .pow exponent => signum y * y.abs.pow (1 / exponent)
  | _ => y

/-- The number of a value of the domain: milliseconds of an instant for time scales. -/
def input (s : Continuous) (v : Value) : Float :=
  match s.transform with
  | .time => (v.toInstant?.map Instant.toFloat).getD notANumber
  | _ => v.toNumber

/-- The value of a number of the domain: an instant for time scales. -/
def domainValue (s : Continuous) (x : Float) : Value :=
  match s.transform with
  | .time => ((instantOf? x).map Value.date).getD .null
  | _ => .number x

/-- The scale with the items of an array as its domain. -/
def setDomain (s : Continuous) (v : Value) : Continuous :=
  { s with domain := (v.items?.getD []).map s.input }

/-- The entries of the range as they are interpolated: for radial scales their squares. -/
def stops (s : Continuous) : List Value :=
  match s.transform with
  | .radial => s.range.map fun v =>
      let r := v.toNumber
      .number (signum r * r * r)
  | _ => s.range

/-- How many entries both the domain and the range have. -/
def size (s : Continuous) : Nat :=
  min s.domain.length s.range.length

/-- Keeps a number within the domain if the scale says so. -/
def clamped (s : Continuous) (x : Float) : Except Fault Float :=
  if s.clamp then
    let (lo, hi) := extent (s.domain.take s.size)
    clampBetween lo hi x
  else pure x

/-- Takes back the squaring of radial ranges. -/
def unsquare (s : Continuous) (v : Value) : Value :=
  match s.transform, v with
  | .radial, .number y => .number (signum y * y.abs.sqrt)
  | _, v => v

def rounded (s : Continuous) (v : Value) : Value :=
  match v with
  | .number y => if s.rounds then .number (round y) else v
  | _ => v

/-- The value of the range for a value of the domain. -/
def apply (s : Continuous) (v : Value) : Except Fault Value := do
  let x := s.input v
  if x.isNaN || s.size < 2 then return s.unknown
  let x ← s.clamped x
  let (d, r) := ascending ((s.domain.take s.size).map s.forward) (s.stops.take s.size)
  let y := s.forward x
  let i := segmentOf d y
  let t := normalize (d.getD i notANumber) (d.getD (i + 1) notANumber) y
  return s.rounded (s.unsquare ((r.getD i .undefined).interpolate (r.getD (i + 1) .undefined) t))

/-- The number of the domain for a number of the range. -/
def invert (s : Continuous) (y : Float) : Except Fault Float := do
  if y.isNaN || s.size < 2 then return notANumber
  let y := if s.transform = .radial then signum y * y * y else y
  let (r, d) := ascending ((s.stops.take s.size).map Value.toNumber)
    ((s.domain.take s.size).map s.forward)
  let i := segmentOf r y
  let t := normalize (r.getD i notANumber) (r.getD (i + 1) notANumber) y
  s.clamped (s.backward (lerp (d.getD i notANumber) (d.getD (i + 1) notANumber) t))

/-- The logarithm for ticks, reflected with the domain. -/
def logarithm (reflect : Bool) (base x : Float) : Float :=
  if reflect then -logBase base (-x) else logBase base x

/-- The power for ticks, reflected with the domain. -/
def power (reflect : Bool) (base x : Float) : Float :=
  if reflect then -powBase base (-x) else powBase base x

/-- The ticks of one power of the base within `lo` and `hi`: its multiples below the base. -/
def multiples (reflect : Bool) (base lo hi e : Float) : List Float :=
  let ks := (countUp (truncInt base - 1).toNat).map fun k => k + 1
  let ks := if lo > 0 then ks else ks.reverse
  let ts := ks.map fun k =>
    if (lo > 0 && e < 0) || (lo ≤ 0 && e > 0) then k / power reflect base (-e)
    else k * power reflect base e
  (ts.takeWhile fun t => t < lo || !(t > hi)).filter fun t => !(t < lo)

/-- The ticks of a logarithmic scale. For an integral base and few powers these are multiples of the
powers, unless they are too few; else powers at evenly spaced exponents. -/
def logTicks (reflect : Bool) (base start stop count : Float) : List Float :=
  let reverse := stop < start
  let (lo, hi) := if reverse then (stop, start) else (start, stop)
  let i := logarithm reflect base lo
  let j := logarithm reflect base hi
  let found :=
    if fract base == 0 && j - i < count && (ceil j - floor i + 1) * base ≤ maxTickCount then
      let first := floor i
      let powers := (countUp (truncInt (ceil j - first) + 1).toNat).map fun k => first + k
      let found := powers.flatMap (multiples reflect base lo hi)
      if Float.ofNat found.length * 2 < count then ticks lo hi count else found
    else (ticks i j (minNumber (j - i) count)).map (power reflect base)
  if reverse then found.reverse else found

/-- About `count` round numbers of the domain. -/
def ticks (s : Continuous) (count : Float) : Except Fault (List Float) :=
  match endsOf? s.domain with
  | none => pure []
  | some (start, stop) =>
    match s.transform with
    | .log base => pure (logTicks s.reflect base start stop count)
    | .time => timeTicks start stop count
    | _ => pure (ChartTemplate.ticks start stop count)

/-- Moves the ends of the domain out to round numbers. -/
def nice (s : Continuous) (count : Float) : Except Fault Continuous := do
  match s.transform with
  | .log base =>
    let snap (f : Float → Float) (x : Float) : Except Fault Float :=
      pure (power s.reflect base (f (logarithm s.reflect base x)))
    return { s with domain := ← niceWith s.domain (snap floor) (snap ceil) }
  | .time =>
    match endsOf? s.domain with
    | none => return s
    | some (start, stop) =>
      let i := TimeInterval.forSpan (minNumber start stop) (maxNumber start stop) count
      return { s with domain := ← niceWith s.domain i.floor i.ceil }
  | _ => return { s with domain := niceLinear s.domain count }

def tickLabels (s : Continuous) (count : Float) (specifier : Option String) : TickLabels :=
  match endsOf? s.domain with
  | none => .text
  | some (start, stop) =>
    match s.transform with
    | .time =>
      match specifier with
      | some p => .date (DatePattern.ofText p)
      | none => .time
    | .log base =>
      let spec := match FormatSpec.parse (specifier.getD (if base == 10 then "s" else ",")) with
        | .ok spec => spec
        | .error _ => {}
      let spec :=
        if fract base == 0 && spec.precision.isNone then { spec with trim := true } else spec
      let produced := max (logTicks s.reflect base start stop 10).length 1
      .log (NumberFormat.ofSpec spec) base (maxNumber (base * count / Float.ofNat produced) 1)
        s.reflect
    | _ => .number (tickFormat start stop count specifier)

def call (s : Continuous) (m : ScaleMethod) (args : List Value) :
    Checked ScaleError (Continuous × Value) := do
  match m, args.head? with
  | .domain, some v => return (s.setDomain v, .undefined)
  | .domain, none => return (s, .array (s.domain.map s.domainValue))
  | .range, some v => return ({ s with range := v.items?.getD [] }, .undefined)
  | .range, none => return (s, .array s.range)
  | .rangeRound, some v => return ({ s with range := v.items?.getD [], rounds := true }, .undefined)
  | .clamp, some v => return ({ s with clamp := v.isTruthy }, .undefined)
  | .clamp, none => return (s, .bool s.clamp)
  | .round, some v => return ({ s with rounds := v.isTruthy }, .undefined)
  | .round, none => return (s, .bool s.rounds)
  | .unknown, some v => return ({ s with unknown := v }, .undefined)
  | .unknown, none => return (s, s.unknown)
  | .nice, _ =>
    let count ← countArgument args
    let s ← s.nice count
    return (s, .undefined)
  | .ticks, _ =>
    let count ← countArgument args
    let xs ← s.ticks count
    return (s, .array (xs.map s.domainValue))
  | .invert, some v =>
    let x ← s.invert v.toNumber
    return (s, s.domainValue x)
  | .base, arg =>
    match s.transform, arg with
    | .log _, some v => return ({ s with transform := .log v.toNumber }, .undefined)
    | .log base, none => return (s, .number base)
    | _, _ => throw (.unsupported m s.kind)
  | .exponent, arg =>
    match s.transform, arg with
    | .pow _, some v => return ({ s with transform := .pow v.toNumber }, .undefined)
    | .pow exponent, none => return (s, .number exponent)
    | _, _ => throw (.unsupported m s.kind)
  | _, _ => throw (.unsupported m s.kind)

end Continuous

end ChartTemplate
