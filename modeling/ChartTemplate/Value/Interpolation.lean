import ChartTemplate.Color
import ChartTemplate.Value.Basic

/-!
# Interpolation between values

Numbers and instants are interpolated linearly, colors by channel, and all else snaps to the nearer
end.
-/

namespace ChartTemplate

/-- The number at `t` on the way from `a` to `b`. -/
def lerp (a b t : Float) : Float :=
  a * (1 - t) + b * t

namespace Value

/-- The first value in the first half of the way, then the second. -/
def snap (a b : Value) (t : Float) : Value :=
  if t < 0.5 then a else b

/-- The value at `t` on the way from one value to another. -/
def interpolate (a b : Value) (t : Float) : Value :=
  match a, b with
  | number x, number y => number (lerp x y t)
  | date x, date y =>
    (((number (lerp (Float.ofInt x.millis) (Float.ofInt y.millis) t)).toInstant?).map date).getD null
  | text x, text y =>
    match Rgb.ofText? x, Rgb.ofText? y with
    | some c, some d => text (Rgb.css ⟨lerp c.r d.r t, lerp c.g d.g t, lerp c.b d.b t⟩)
    | _, _ => snap a b t
  | _, _ => snap a b t

/-- The value at `t` on the way through evenly spaced stops. -/
def piecewise (stops : List Value) (t : Float) : Value :=
  match stops with
  | [] => undefined
  | [v] => v
  | _ =>
    let n := stops.length - 1
    let scaled := t * Float.ofNat n
    let i := (clampInt 0 (n - 1 : Nat) (floor scaled)).toNat
    interpolate (stops.getD i undefined) (stops.getD (i + 1) undefined) (scaled - Float.ofNat i)

end Value

end ChartTemplate
