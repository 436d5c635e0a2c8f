import ChartTemplate.Scale.Kind
import ChartTemplate.Value.Interpolation

/-!
# Sequential and diverging scales

A value's number is mapped onto the unit interval, for three entries of the domain from both sides of
the middle one, and from there through the stops of the range.
-/

namespace ChartTemplate

structure Sequential where
  /-- Whether the scale was made as a diverging one. -/
  diverging : Bool
  /-- The entries of the domain. -/
  domain : List Float
  /-- The stops of the range. -/
  range : List Value
  /-- Whether positions are kept within the unit interval. -/
  clamp : Bool
  /-- The result for what is not a number. -/
  unknown : Value

namespace Sequential

/-- The scale with its default domain and range. -/
def default (diverging : Bool) : Sequential where
  diverging
  domain := if diverging then [0, 0.5, 1] else [0, 1]
  range := [.number 0, .number 1]
  clamp := false
  unknown := .undefined

def kind (s : Sequential) : ScaleKind :=
  if s.diverging then .diverging else .sequential

/-- The share of the unit interval that one unit between `a` and `b` takes; none if they coincide. -/
def slope (share a b : Float) : Float :=
  if a == b then 0 else share / (b - a)

def unclamped (s : Sequential) (x : Float) : Float :=
  match s.domain with
  | [a, b, c] =>
    let sign : Float := if c < a then -1 else 1
    0.5 + (x - b) * (if sign * x < sign * b then slope 0.5 a b else slope 0.5 b c)
  | a :: b :: rest => (x - a) * slope 1 a ((b :: rest).getLastD b)
  | _ => notANumber

/-- The position of a number, kept within the unit interval if the scale says so. -/
def position (s : Sequential) (x : Float) : Float :=
  if s.clamp then clampUnit (s.unclamped x) else s.unclamped x

/-- The value of the range for a value of the domain. -/
def apply (s : Sequential) (v : Value) : Value :=
  let x := v.toNumber
  let t := s.position x
  if x.isNaN || t.isNaN then s.unknown else Value.piecewise s.range t

def call (s : Sequential) (m : ScaleMethod) (args : List Value) :
    Except ScaleError (Sequential × Value) := do
  match m, args.head? with
  | .domain, some v => return ({ s with domain := numbersOf v }, .undefined)
  | .domain, none => return (s, numberArray s.domain)
  | .range, some v => return ({ s with range := v.items?.getD [] }, .undefined)
  | .range, none => return (s, .array s.range)
  | .clamp, some v => return ({ s with clamp := v.isTruthy }, .undefined)
  | .clamp, none => return (s, .bool s.clamp)
  | .unknown, some v => return ({ s with unknown := v }, .undefined)
  | .unknown, none => return (s, s.unknown)
  | .nice, _ =>
    let count ← countArgument args
    return ({ s with domain := niceLinear s.domain count }, .undefined)
  | .ticks, _ =>
    match endsOf? s.domain with
    | none => return (s, numberArray [])
    | some (a, b) =>
      let count ← countArgument args
      return (s, numberArray (ticks a b count))
  | _, _ => throw (.unsupported m s.kind)

end Sequential

end ChartTemplate
