import ChartTemplate.Numeric.Parts

/-!
# Decimal digits of binary64 numbers

`Decimal` is a list of digits `d1 d2 ... dk` with the exponent of the first, standing for
`d1.d2...dk * 10 ^ exponent`. Two families of digits are computed, both in exact integer arithmetic:

* `Decimal.shortest`: the fewest digits that read back to the same number, nearest to it among
  those;
* `Decimal.expand` and `fixedExpansion`: a given number of digits of the exact value.
-/

namespace ChartTemplate

/-- The number `d1.d2...dk * 10 ^ exponent`. -/
structure Decimal where
  /-- The digits, each below ten, most significant first. -/
  digits : List Nat
  /-- The power of ten that the first digit counts. -/
  exponent : Int
deriving DecidableEq, Repr

/-- What to do with a number halfway between two candidates. -/
inductive Tie where
  /-- The even candidate. -/
  | toEven
  /-- The greater candidate. -/
  | up
deriving DecidableEq, Repr

/-- The decimal digits of `n`, least significant first; none for zero. -/
def digitsRev (n : Nat) : List Nat :=
  if n = 0 then [] else n % 10 :: digitsRev (n / 10)
termination_by n
decreasing_by omega

/-- The decimal digits of `n`, most significant first; `[0]` for zero. -/
def digitsOf (n : Nat) : List Nat :=
  if n = 0 then [0] else (digitsRev n).reverse

/-- The number that a list of digits spells, most significant first. -/
def ofDigits (ds : List Nat) : Nat :=
  ds.foldl (fun n d => 10 * n + d) 0

def digitChar (d : Nat) : Char :=
  Char.ofNat (48 + d)

def digitChars (ds : List Nat) : List Char :=
  ds.map digitChar

/-- The text of a natural number. -/
def natChars (n : Nat) : List Char :=
  digitChars (digitsOf n)

/-- The quotient `num / den` rounded to nearest, ties as `tie` says. -/
def roundDiv (tie : Tie) (num den : Nat) : Nat :=
  let q := num / den
  match compare (2 * (num % den)) den, tie with
  | .lt, _ => q
  | .gt, _ => q + 1
  | .eq, .up => q + 1
  | .eq, .toEven => if q % 2 = 0 then q else q + 1

namespace FloatParts

/-- The magnitude times `10 ^ k`, as a fraction of naturals. -/
def scaled (p : FloatParts) (k : Int) : Nat × Nat :=
  (p.mant * powTwo p.exp.toNat * powTen k.toNat, powTwo (-p.exp).toNat * powTen (-k).toNat)

/-- Whether `10 ^ k` is at most the magnitude. -/
def powLe (p : FloatParts) (k : Int) : Bool :=
  let (num, den) := p.scaled (-k)
  den ≤ num

/-- The exponent of the leading decimal digit of a non-zero magnitude. The logarithm of two bounds
it to within one of the estimate, and an exact comparison decides. -/
def leadExponent (p : FloatParts) : Int :=
  let bits : Int := p.mant.log2 + p.exp
  let guess := (bits * 1233).fdiv 4096
  if p.powLe (guess + 1) then (if p.powLe (guess + 2) then guess + 2 else guess + 1)
  else if p.powLe guess then guess
  else if p.powLe (guess - 1) then guess - 1
  else guess - 2

/-- Compares `n * 10 ^ k` with `m * 2 ^ q`. -/
def compareScaled (n : Nat) (k : Int) (m : Nat) (q : Int) : Ordering :=
  compare (n * powTen k.toNat * powTwo (-q).toNat) (m * powTwo q.toNat * powTen (-k).toNat)

/-- Whether `n * 10 ^ k` lies among the reals that round to the number: from halfway to the
neighbour below to halfway to the neighbour above, ends included when the significand is even. -/
def readsBack (p : FloatParts) (n : Nat) (k : Int) : Bool :=
  let lo := if p.narrowBelow then 4 * p.mant - 1 else 4 * p.mant - 2
  let hi := 4 * p.mant + 2
  let ends := p.mant % 2 == 0
  let below := compareScaled n k lo (p.exp - 2)
  let above := compareScaled n k hi (p.exp - 2)
  (below == .gt || (ends && below == .eq)) && (above == .lt || (ends && above == .eq))

/-- The neighbour of the magnitude on the grid of `10 ^ k` that reads back, the nearer one of two. -/
def onGrid? (tie : Tie) (p : FloatParts) (k : Int) : Option Nat :=
  let (num, den) := p.scaled (-k)
  let n := num / den
  match p.readsBack n k, p.readsBack (n + 1) k with
  | true, true => some (roundDiv tie num den)
  | true, false => some n
  | false, true => some (n + 1)
  | false, false => none

/-- The coarsest grid, from `10 ^ k` down `fuel` steps, that holds a number reading back. -/
def shortestFrom (tie : Tie) (p : FloatParts) : Nat → Int → Nat × Int
  | 0, k =>
    let (num, den) := p.scaled (-k)
    (roundDiv tie num den, k)
  | fuel + 1, k =>
    match p.onGrid? tie k with
    | some n => (n, k)
    | none => shortestFrom tie p fuel (k - 1)

end FloatParts

/-- Drops the zeros at the end of a list of digits given least significant first. -/
def stripZeros : List Nat → List Nat
  | 0 :: ds => stripZeros ds
  | ds => ds

namespace Decimal

/-- The digits of `n * 10 ^ k`, without trailing zeros. Zero is the single digit zero. -/
def ofScaled (n : Nat) (k : Int) : Decimal :=
  if n = 0 then ⟨[0], 0⟩
  else
    let ds := digitsRev n
    ⟨(stripZeros ds).reverse, k + (ds.length : Int) - 1⟩

/-- The fewest digits that identify the finite number `x` up to its sign. -/
def shortest (tie : Tie) (x : Float) : Decimal :=
  let p := FloatParts.ofFloat x
  if p.mant = 0 then ⟨[0], 0⟩
  else
    let (n, k) := p.shortestFrom tie 18 p.leadExponent
    ofScaled n k

/-- The first `count` digits of the magnitude of the finite non-zero number `x`, rounded on the
exact value with ties to even. -/
def expand (x : Float) (count : Nat) : Decimal :=
  let p := FloatParts.ofFloat x
  if p.mant = 0 then ⟨List.replicate count 0, 0⟩
  else
    let lead := p.leadExponent
    let (num, den) := p.scaled ((count : Int) - 1 - lead)
    let n := roundDiv .toEven num den
    if powTen count ≤ n then ⟨digitsOf (n / 10), lead + 1⟩ else ⟨digitsOf n, lead⟩

end Decimal

/-- The magnitude of the finite number `x` with `places` digits after the point, rounded on the
exact value with ties to even: the whole part, and the digits after the point. -/
def fixedExpansion (x : Float) (places : Nat) : List Nat × List Nat :=
  let p := FloatParts.ofFloat x
  let (num, den) := p.scaled places
  let ds := digitsOf (roundDiv .toEven num den)
  let ds := List.replicate (places + 1 - ds.length) 0 ++ ds
  (ds.take (ds.length - places), ds.drop (ds.length - places))

end ChartTemplate
