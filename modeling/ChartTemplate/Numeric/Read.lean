import ChartTemplate.Numeric.Decimal

/-!
# Reading decimal numbers

`readFloat?` reads a decimal numeral with an optional sign, point and exponent, and the names of
infinity and NaN in any case; the value is rounded once, to nearest.
-/

namespace ChartTemplate

def digitValue (c : Char) : Nat :=
  c.toNat - 48

/-- The number that a list of digit characters spells. -/
def natOfChars (cs : List Char) : Nat :=
  ofDigits (cs.map digitValue)

/-- The number `m * 10 ^ e`, rounded to nearest. Exponents far out of range are decided from the
size of `m` alone. -/
def ofDecimal (m : Nat) (e : Int) : Float :=
  if m = 0 then 0
  else
    let size : Int := (digitsRev m).length + e
    if 320 < size then infinity
    else if size < -340 then 0
    else Float.ofScientific m (e < 0) e.natAbs

/-- Reads a natural number of at least one digit and nothing else. -/
def readNat? (cs : List Char) : Option Nat :=
  if cs.isEmpty || !cs.all Char.isDigit then none else some (natOfChars cs)

/-- Reads the exponent part of a numeral: nothing, or a mark and a signed integer. -/
def readExponent? : List Char → Option Int
  | [] => some 0
  | c :: r =>
    if c == 'e' || c == 'E' then
      match r with
      | '-' :: ds => (readNat? ds).map fun n => -(n : Int)
      | '+' :: ds => (readNat? ds).map fun n => (n : Int)
      | ds => (readNat? ds).map fun n => (n : Int)
    else none

/-- Reads an unsigned decimal numeral: digits, perhaps a point among them, perhaps an exponent. -/
def readUnsigned? (cs : List Char) : Option Float :=
  let whole := cs.takeWhile Char.isDigit
  let rest := cs.dropWhile Char.isDigit
  let (frac, rest) := match rest with
    | '.' :: r => (r.takeWhile Char.isDigit, r.dropWhile Char.isDigit)
    | r => ([], r)
  if whole.isEmpty && frac.isEmpty then none
  else (readExponent? rest).map fun e => ofDecimal (natOfChars (whole ++ frac)) (e - frac.length)

/-- Reads a numeral without its sign, or the name of a special value. -/
def readMagnitude? (cs : List Char) : Option Float :=
  let name := cs.map Char.toLower
  if name == "inf".toList || name == "infinity".toList then some infinity
  else if name == "nan".toList then some notANumber
  else readUnsigned? cs

def readFloat? (text : String) : Option Float :=
  match text.toList with
  | '-' :: r => (readMagnitude? r).map fun x => -x
  | '+' :: r => readMagnitude? r
  | r => readMagnitude? r

end ChartTemplate
