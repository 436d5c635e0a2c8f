import ChartTemplate.Numeric.Parts

/-!
# Rounding to integers and exact remainders

Each function rounds the exact value of a binary64 number and keeps its sign, so that `-0.5` is
rounded up to `-0`. NaN and the infinities are left alone.
-/

namespace ChartTemplate

/-- Replaces a finite number by the integer magnitude that `f` picks, with the sign kept. -/
def roundWith (f : FloatParts → Nat) (x : Float) : Float :=
  if x.isFinite then
    let p := FloatParts.ofFloat x
    if 0 ≤ p.exp then x else withSign p.negative (Float.ofNat (f p))
  else x

/-- The greatest integer at most `x`. -/
def floor (x : Float) : Float :=
  roundWith (fun p => if p.negative && p.fraction != 0 then p.whole + 1 else p.whole) x

/-- The least integer at least `x`. -/
def ceil (x : Float) : Float :=
  roundWith (fun p => if !p.negative && p.fraction != 0 then p.whole + 1 else p.whole) x

/-- The integer part of `x`, toward zero. -/
def trunc (x : Float) : Float :=
  roundWith FloatParts.whole x

/-- The nearest integer; a half goes away from zero. -/
def round (x : Float) : Float :=
  roundWith (fun p => if p.scale ≤ 2 * p.fraction then p.whole + 1 else p.whole) x

/-- The part of `x` after the point, with the sign of `x`. -/
def fract (x : Float) : Float :=
  x - trunc x

/-- The integer part of a finite `x`; zero for NaN and the infinities. -/
def truncInt (x : Float) : Int :=
  if x.isFinite then
    let p := FloatParts.ofFloat x
    if p.negative then -(p.whole : Int) else p.whole
  else 0

/-- The integer part of `x` clamped to `lo` and `hi`; zero for NaN. -/
def clampInt (lo hi : Int) (x : Float) : Int :=
  if x.isNaN then 0
  else if x.isInf then if signBit x then lo else hi
  else max lo (min hi (truncInt x))

/-- The integer part of `x` clamped to 64 signed bits. -/
def toInt64Clamped (x : Float) : Int :=
  clampInt (-9223372036854775808) 9223372036854775807 x

/-- The greater of two numbers, ignoring NaN; of two equal ones, the second. -/
def maxNumber (x y : Float) : Float :=
  if x.isNaN then y else if y.isNaN then x else if y < x then x else y

/-- The lesser of two numbers, ignoring NaN; of two equal ones, the second. -/
def minNumber (x y : Float) : Float :=
  if x.isNaN then y else if y.isNaN then x else if x < y then x else y

/-- Square-and-multiply power with a natural exponent, low bits first. -/
def powNat (base acc : Float) (n : Nat) : Float :=
  if n = 0 then acc
  else
    let acc := if n % 2 = 1 then acc * base else acc
    if n / 2 = 0 then acc else powNat (base * base) acc (n / 2)
termination_by n

/-- An integer power by squaring; a negative power is the reciprocal of the positive one. -/
def powInt (base : Float) (n : Int) : Float :=
  let p := powNat base 1 n.natAbs
  if n < 0 then 1 / p else p

end ChartTemplate
