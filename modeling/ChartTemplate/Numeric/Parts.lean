/-!
# Binary64 numbers as integers

`FloatParts` is a finite binary64 number written as `mant * 2 ^ exp` with its sign kept apart. All
exact arithmetic of the library (rounding to integers, remainders, decimal digits) is done on these
naturals, never on an approximate text of the number.
-/

namespace ChartTemplate

abbrev powTwo (k : Nat) : Nat := Nat.pow 2 k

abbrev powTen (k : Nat) : Nat := Nat.pow 10 k

/-- A finite binary64 number: `mant * 2 ^ exp`, negated when `negative`. -/
structure FloatParts where
  /-- The sign bit; set for `-0` too. -/
  negative : Bool
  /-- The integer significand. -/
  mant : Nat
  /-- The binary exponent of the significand's last bit. -/
  exp : Int
  /-- The gap to the next number below is half the gap to the next number above. -/
  narrowBelow : Bool
deriving DecidableEq, Repr

/-- The sign bit of `x`, which `-0` has and `0` has not. -/
def signBit (x : Float) : Bool :=
  x.toBits >>> 63 == 1

/-- The parts of `x`. Meaningful for finite `x` only: test for NaN and the infinities first. -/
def FloatParts.ofFloat (x : Float) : FloatParts :=
  let bits := x.toBits
  let e := ((bits >>> 52) &&& 0x7FF).toNat
  let f := (bits &&& 0xFFFFFFFFFFFFF).toNat
  { negative := signBit x
    mant := if e = 0 then f else powTwo 52 + f
    exp := if e = 0 then -1074 else (e : Int) - 1075
    narrowBelow := f == 0 && 1 < e }

/-- The whole part of the magnitude. -/
def FloatParts.whole (p : FloatParts) : Nat :=
  p.mant * powTwo p.exp.toNat / powTwo (-p.exp).toNat

/-- The denominator over which `fraction` is counted. -/
def FloatParts.scale (p : FloatParts) : Nat :=
  powTwo (-p.exp).toNat

/-- The numerator, over `scale`, of what the whole part leaves of the magnitude. -/
def FloatParts.fraction (p : FloatParts) : Nat :=
  p.mant * powTwo p.exp.toNat % powTwo (-p.exp).toNat

def withSign (negative : Bool) (x : Float) : Float :=
  if negative then -x else x

/-- The number `mant * 2 ^ exp`, rounded to nearest when it is not representable. -/
def ofDyadic (negative : Bool) (mant : Nat) (exp : Int) : Float :=
  withSign negative <|
    if 0 ≤ exp then Float.ofNat (mant * powTwo exp.toNat)
    else Float.ofScientific (mant * Nat.pow 5 (-exp).toNat) true (-exp).toNat

def infinity : Float := Float.ofBits 0x7FF0000000000000

def notANumber : Float := Float.ofBits 0x7FF8000000000000

def negativeZero : Float := Float.ofBits 0x8000000000000000

end ChartTemplate
