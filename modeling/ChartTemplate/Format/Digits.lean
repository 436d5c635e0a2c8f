import ChartTemplate.Fault
import ChartTemplate.Numeric.Text

/-!
# Laying out digits

The digits of a number, rounded half up on its exact expansion, in the four layouts of number
formats: a fixed number of places, scientific, a number of significant digits, and a thousands
prefix. `trimInsignificant` drops zeros at the end of a fraction and `group` separates thousands.
-/

namespace ChartTemplate

/-- Adds one to the last digit; the flag says that the sum needs one digit more. -/
def increment : List Nat → List Nat × Bool
  | [] => ([], true)
  | d :: ds =>
    match increment ds with
    | (ds, true) => if d = 9 then (0 :: ds, true) else ((d + 1) :: ds, false)
    | (ds, false) => (d :: ds, false)

/-- Rounds to the first `count` digits, half up, looking at the digit after them. -/
def Decimal.roundTo (d : Decimal) (count : Nat) : Decimal :=
  let kept := d.digits.take count
  if 5 ≤ d.digits.getD count 0 then
    match increment kept with
    | (ds, true) => ⟨(1 :: ds).dropLast, d.exponent + 1⟩
    | (ds, false) => ⟨ds, d.exponent⟩
  else ⟨kept, d.exponent⟩

/-- How many digits are computed beyond those that are kept. -/
def guardDigits : Nat := 30

/-- The first `count` significant digits of the magnitude of `x`. NaN and the infinities have no
digits. -/
def significantDigits (x : Float) (count : Nat) : Decimal :=
  if x == 0 then ⟨List.replicate (max count 1) 0, 0⟩
  else if x.isFinite then (Decimal.expand x (count + guardDigits + 1)).roundTo count
  else ⟨[], 0⟩

/-- The first `precision` significant digits of `x`, or the fewest that identify it when that is
zero. -/
def decimalParts (x : Float) (precision : Nat) : Decimal :=
  if precision = 0 then Decimal.shortest .up x else significantDigits x precision

/-- The exponent of the leading digit of `x`; zero for zero, NaN and the infinities. -/
def exponentOf (x : Float) : Int :=
  if x == 0 || !x.isFinite then 0 else (Decimal.shortest .up x).exponent

def exponentChars (e : Int) : List Char :=
  'e' :: (if e < 0 then '-' else '+') :: natChars e.natAbs

def pointedDigits : List Char → Except Fault (List Char)
  | [] => .error .noDigits
  | c :: cs => .ok (c :: '.' :: cs)

/-- The magnitude of `x` with `precision` digits after the point, rounded half up: whole part and
fraction. -/
def fixedDigits (x : Float) (precision : Nat) : List Nat × List Nat :=
  let (whole, frac) := fixedExpansion x (precision + guardDigits)
  let kept := whole ++ frac.take precision
  let ds :=
    if 5 ≤ frac.getD precision 0 then
      match increment kept with
      | (ds, true) => 1 :: ds
      | (ds, false) => ds
    else kept
  (ds.take (ds.length - precision), ds.drop (ds.length - precision))

/-- The text of `x` with `precision` digits after the point; plain text from `10 ^ 21` on. -/
def fixedChars (x : Float) (precision : Nat) : List Char :=
  if 1e21 ≤ x.abs || !x.isFinite then numberChars x
  else
    let (whole, frac) := fixedDigits x precision
    let body :=
      if precision = 0 then digitChars whole else digitChars whole ++ '.' :: digitChars frac
    if x < 0 && (whole ++ frac).any (· != 0) then '-' :: body else body

/-- The text of `x` with one digit before the point, `precision` after it, and an exponent. -/
def exponentialChars (x : Float) (precision : Nat) : Except Fault (List Char) := do
  let d := significantDigits x.abs (precision + 1)
  let ds := digitChars d.digits
  let mantissa ← if precision = 0 then pure ds else pointedDigits ds
  let body := mantissa ++ exponentChars d.exponent
  pure (if x < 0 then '-' :: body else body)

/-- The text of `x` with `precision` significant digits, scientific where the exponent is below `-6`
or not below the precision. -/
def precisionChars (x : Float) (precision : Nat) : Except Fault (List Char) := do
  let precision := max precision 1
  let d := significantDigits x.abs precision
  let ds := digitChars d.digits
  let body ←
    if d.exponent < -6 ∨ (precision : Int) ≤ d.exponent then do
      let mantissa ← if precision = 1 then pure ds else pointedDigits ds
      pure (mantissa ++ exponentChars d.exponent)
    else if 0 ≤ d.exponent then
      let point := d.exponent.toNat + 1
      pure (if point < ds.length then ds.take point ++ '.' :: ds.drop point else ds)
    else pure ('0' :: '.' :: zeros (-d.exponent - 1).toNat ++ ds)
  pure (if x < 0 then '-' :: body else body)

/-- A decimal written positionally, padded with zeros up to its point. -/
def Decimal.positionalChars (d : Decimal) : List Char :=
  let ds := digitChars d.digits
  if d.exponent < 0 then '0' :: '.' :: zeros (-d.exponent - 1).toNat ++ ds
  else
    let point := d.exponent.toNat + 1
    if point < ds.length then ds.take point ++ '.' :: ds.drop point
    else ds ++ zeros (point - ds.length)

/-- The text of `x` rounded to `precision` significant digits, positional. -/
def roundedChars (x : Float) (precision : Nat) : List Char :=
  (decimalParts x precision).positionalChars

/-- The exponent of the thousands prefix for numbers whose leading digit has exponent `e`. -/
def prefixExponent (e : Int) : Int :=
  max (-8) (min 8 (e / 3)) * 3

/-- The text of `x` in units of its thousands prefix, and the exponent of that prefix. -/
def prefixedChars (x : Float) (precision : Nat) : List Char × Int :=
  let d := decimalParts x precision
  let ds := digitChars d.digits
  let unit := prefixExponent d.exponent
  let point := d.exponent - unit + 1
  let n : Int := ds.length
  let text :=
    if point = n then ds
    else if n < point then ds ++ zeros (point - n).toNat
    else if 0 < point then ds.take point.toNat ++ '.' :: ds.drop point.toNat
    else
      let d := decimalParts x ((precision : Int) + point - 1).toNat
      '0' :: '.' :: zeros (-point).toNat ++ digitChars d.digits
  (text, unit)

/-- Scans the digits of a numeral after its first character. The state is `none` before the point
and then the characters that are dropped unless a digit other than zero follows them. -/
def trimZeros : Option (List Char) → List Char → List Char
  | _, [] => []
  | held, c :: cs =>
    if c = '.' then held.getD [] ++ trimZeros (some ['.']) cs
    else if c = '0' then
      match held with
      | none => c :: trimZeros none cs
      | some z => trimZeros (some (z ++ [c])) cs
    else if c.isDigit then held.getD [] ++ c :: trimZeros (held.map fun _ => []) cs
    else c :: cs

/-- Drops the zeros at the end of the fraction of a numeral, and a point that is left bare. -/
def trimInsignificant : List Char → List Char
  | [] => []
  | c :: cs => c :: trimZeros none cs

/-- The groups of a text given from its end, last group first. Groups have three characters; near a
limit on the grouped text they shrink to what fits, but not to nothing, and past it they end. -/
def groupsRev (limit : Option Nat) (length : Nat) (rev : List Char) : List (List Char) :=
  match rev with
  | [] => []
  | c :: cs =>
    let size :=
      match limit with
      | none => 3
      | some w => if w < length + 3 + 1 then max (w - length) 1 else 3
    let rest := cs.drop (size - 1)
    let length := length + size + 1
    let more := match limit with
      | none => true
      | some w => length ≤ w
    ((c :: cs).take size).reverse :: (if more then groupsRev limit length rest else [])
termination_by rev.length
decreasing_by
  simp only [List.length_cons, List.length_drop]
  omega

def joinChars (sep : List Char) : List (List Char) → List Char
  | [] => []
  | [t] => t
  | t :: ts => t ++ sep ++ joinChars sep ts

/-- Separates thousands by commas, within a limit on the length of the result. -/
def group (limit : Option Nat) (cs : List Char) : List Char :=
  joinChars [','] (groupsRev limit 0 cs.reverse).reverse

/-- The number of places that labels `step` apart need. -/
def precisionFixed (step : Float) : Nat :=
  (-exponentOf step.abs).toNat

/-- The number of places that labels `step` apart need in units of the thousands prefix of
`value`. -/
def precisionPrefix (step value : Float) : Nat :=
  (prefixExponent (exponentOf value) - exponentOf step.abs).toNat

/-- The number of significant digits that labels `step` apart need up to the magnitude `top`. -/
def precisionRound (step top : Float) : Nat :=
  (exponentOf (top.abs - step.abs) - exponentOf step.abs).toNat + 1

end ChartTemplate
