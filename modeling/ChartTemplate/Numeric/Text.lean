import ChartTemplate.Numeric.Decimal

/-!
# The text of a number

`numberText` writes a number as templates show it: integers without a fraction, the fewest digits
that identify the number, and an exponent outside `1e-7 .. 1e21`. `scientificText` always writes an
exponent, and `canonicalText` is the form used inside JSON documents.
-/

namespace ChartTemplate

def zeros (n : Nat) : List Char :=
  List.replicate n '0'

/-- The digits with a point after the first, if there are more. -/
def pointAfterFirst : List Char → List Char
  | [] => []
  | [c] => [c]
  | c :: cs => c :: '.' :: cs

/-- The text of an integer, with a minus sign for a negative one. -/
def intChars (n : Int) : List Char :=
  if n < 0 then '-' :: natChars n.natAbs else natChars n.natAbs

/-- A decimal written positionally where its exponent lies between `-7` and `20`, and with a signed
exponent elsewhere. -/
def Decimal.plainChars (d : Decimal) : List Char :=
  let ds := digitChars d.digits
  let point := d.exponent + 1
  if (ds.length : Int) ≤ point ∧ point ≤ 21 then ds ++ zeros (point - ds.length).toNat
  else if 0 < point ∧ point ≤ 21 then ds.take point.toNat ++ '.' :: ds.drop point.toNat
  else if -6 < point ∧ point ≤ 0 then '0' :: '.' :: zeros (-point).toNat ++ ds
  else
    pointAfterFirst ds ++ 'e' :: (if d.exponent < 0 then '-' else '+') :: natChars d.exponent.natAbs

/-- The text of a number: fewest digits, no fraction for integers, one zero. -/
def numberChars (x : Float) : List Char :=
  if x.isNaN then "NaN".toList
  else if x.isInf then if x < 0 then "-Infinity".toList else "Infinity".toList
  else if x == 0 then ['0']
  else
    let body := (Decimal.shortest .up x).plainChars
    if x < 0 then '-' :: body else body

/-- The text of a number: fewest digits, no fraction for integers, one zero. -/
def numberText (x : Float) : String :=
  String.ofList (numberChars x)

/-- The fewest digits, one before the point, and an exponent without a plus sign. -/
def scientificText (x : Float) : String :=
  if x.isNaN then "NaN"
  else if x.isInf then if x < 0 then "-inf" else "inf"
  else
    let d := Decimal.shortest .up x
    let body := pointAfterFirst (digitChars d.digits) ++ 'e' :: intChars d.exponent
    String.ofList (if signBit x then '-' :: body else body)

/-- The fewest digits, positional with at least one digit after the point for exponents from `-5` to
`15`, and with a signed exponent elsewhere. For finite numbers. -/
def canonicalChars (x : Float) : List Char :=
  let d := Decimal.shortest .toEven x
  let ds := digitChars d.digits
  let point := d.exponent + 1
  let body :=
    if (ds.length : Int) ≤ point ∧ point ≤ 16 then ds ++ zeros (point - ds.length).toNat ++ ".0".toList
    else if 0 < point ∧ point ≤ 16 then ds.take point.toNat ++ '.' :: ds.drop point.toNat
    else if -5 < point ∧ point ≤ 0 then '0' :: '.' :: zeros (-point).toNat ++ ds
    else
      pointAfterFirst ds ++ 'e' :: (if d.exponent < 0 then '-' else '+') :: natChars d.exponent.natAbs
  if signBit x then '-' :: body else body

end ChartTemplate
