import ChartTemplate.Numeric.Elementary
import ChartTemplate.Value.Lists

/-!
# Mathematical functions of values

`MathFunction` lists the functions and constants that templates may name; `MathFunction.eval` applies
one to the numbers of its arguments. A missing argument counts as NaN.
-/

namespace ChartTemplate

inductive MathFunction where
  | abs | acos | acosh | asin | asinh | atan | atan2 | atanh | cbrt | ceil | clz32 | cos | cosh
  | exp | expm1 | floor | fround | hypot | imul | log | log10 | log1p | log2 | max | min | pow
  | round | sign | sin | sinh | sqrt | tan | tanh | trunc
  | e | ln10 | ln2 | log10e | log2e | pi | sqrtHalf | sqrtTwo
deriving DecidableEq, Repr

namespace MathFunction

def names : List (MathFunction × String) :=
  [(abs, "abs"), (acos, "acos"), (acosh, "acosh"), (asin, "asin"), (asinh, "asinh"), (atan, "atan"),
    (atan2, "atan2"), (atanh, "atanh"), (cbrt, "cbrt"), (ceil, "ceil"), (clz32, "clz32"),
    (cos, "cos"), (cosh, "cosh"), (exp, "exp"), (expm1, "expm1"), (floor, "floor"),
    (fround, "fround"), (hypot, "hypot"), (imul, "imul"), (log, "log"), (log10, "log10"),
    (log1p, "log1p"), (log2, "log2"), (max, "max"), (min, "min"), (pow, "pow"), (round, "round"),
    (sign, "sign"), (sin, "sin"), (sinh, "sinh"), (sqrt, "sqrt"), (tan, "tan"), (tanh, "tanh"),
    (trunc, "trunc"), (e, "E"), (ln10, "LN10"), (ln2, "LN2"), (log10e, "LOG10E"),
    (log2e, "LOG2E"), (pi, "PI"), (sqrtHalf, "SQRT1_2"), (sqrtTwo, "SQRT2")]

def ofName? (name : String) : Option MathFunction :=
  (names.find? fun p => p.2 == name).map Prod.fst

/-- A number modulo two to the power of 32, fraction dropped; zero if it is not finite. -/
def toUInt32 (x : Float) : Nat :=
  (truncInt x % 4294967296).toNat

def leadingZeros (n : Nat) : Nat :=
  if n = 0 then 32 else 31 - n.log2

def wordProduct (x y : Float) : Int :=
  Int.bmod (toUInt32 x * toUInt32 y : Nat) 4294967296

/-- The sign of a number as a number; zero and NaN stand for themselves. -/
def signOf (x : Float) : Float :=
  if x.isNaN || x == 0 then x else if x < 0 then -1 else 1

/-- Combines a list from `start` on; NaN if any of them is. -/
def fold (pick : Float → Float → Float) (start : Float) (xs : List Float) : Float :=
  if xs.any Float.isNaN then notANumber else xs.foldl pick start

/-- The result for the numbers `xs`, the first two of which are `x` and `y`. -/
def result (f : MathFunction) (x y : Float) (xs : List Float) : Float :=
  match f with
  | abs => x.abs
  | acos => x.acos
  | acosh => inverseCosh x
  | asin => x.asin
  | asinh => inverseSinh x
  | atan => x.atan
  | atan2 => x.atan2 y
  | atanh => inverseTanh x
  | cbrt => cubeRoot x
  | ceil => ChartTemplate.ceil x
  | clz32 => Float.ofNat (leadingZeros (toUInt32 x))
  | cos => x.cos
  | cosh => x.cosh
  | exp => x.exp
  | expm1 => expMinusOne x
  | floor => ChartTemplate.floor x
  | fround => x.toFloat32.toFloat
  | hypot => (sumOf (xs.map fun n => n * n)).sqrt
  | imul => Float.ofInt (wordProduct x y)
  | log => x.log
  | log10 => x.log10
  | log1p => logOnePlus x
  | log2 => x.log2
  | max => fold maxNumber (-infinity) xs
  | min => fold minNumber infinity xs
  | pow => x.pow y
  | round => ChartTemplate.floor (x + 0.5)
  | sign => signOf x
  | sin => x.sin
  | sinh => x.sinh
  | sqrt => x.sqrt
  | tan => x.tan
  | tanh => x.tanh
  | trunc => ChartTemplate.trunc x
  | e => 2.718281828459045
  | ln10 => 2.302585092994046
  | ln2 => 0.6931471805599453
  | log10e => 0.4342944819032518
  | log2e => 1.4426950408889634
  | pi => 3.141592653589793
  | sqrtHalf => 0.7071067811865476
  | sqrtTwo => 1.4142135623730951

/-- Applies a function to the numbers of its arguments. -/
def eval (f : MathFunction) (args : List Value) : Value :=
  let xs := args.map Value.toNumber
  .number (f.result (xs.getD 0 notANumber) (xs.getD 1 notANumber) xs)

end MathFunction

end ChartTemplate
