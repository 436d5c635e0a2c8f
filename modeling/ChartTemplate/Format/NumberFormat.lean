import ChartTemplate.Format.Digits
import ChartTemplate.Numeric.Rounding
import ChartTemplate.Format.Specifier

/-!
# Number formats

`NumberFormat` is a specifier made ready for use: its type is resolved, its precision is bounded, and
its fixed texts are worked out. `NumberFormat.format` writes a number with it.
-/

namespace ChartTemplate

/-- How the digits of a number are written. -/
inductive NumberStyle where
  /-- A hundredfold with fixed places. -/
  | percent
  | binary
  /-- The plain text, as a suffix. -/
  | character
  | integer
  | exponent
  | fixed
  /-- Significant digits, scientific where the exponent is large. -/
  | general
  | octal
  /-- A hundredfold rounded to significant digits. -/
  | roundedPercent
  /-- Rounded to significant digits, positional. -/
  | rounded
  /-- In units of a thousands prefix. -/
  | thousands
  /-- Base sixteen, small letters. -/
  | hexLower
  /-- Base sixteen, capital letters. -/
  | hexUpper
deriving DecidableEq, Repr

namespace NumberStyle

def ofChar? : Char → Option NumberStyle
  | '%' => some percent
  | 'b' => some binary
  | 'c' => some character
  | 'd' => some integer
  | 'e' => some exponent
  | 'f' => some fixed
  | 'g' => some general
  | 'o' => some octal
  | 'p' => some roundedPercent
  | 'r' => some rounded
  | 's' => some thousands
  | 'x' => some hexLower
  | 'X' => some hexUpper
  | _ => none

def baseMark : NumberStyle → String
  | binary => "0b"
  | octal => "0o"
  | hexLower | hexUpper => "0x"
  | _ => ""

/-- Whether precision counts significant digits. -/
def isSignificant : NumberStyle → Bool
  | general | roundedPercent | rounded | thousands => true
  | _ => false

def isPercent : NumberStyle → Bool
  | percent | roundedPercent => true
  | _ => false

/-- Whether what follows the leading digits counts as a suffix and is not grouped. -/
def splitsSuffix : NumberStyle → Bool
  | integer | exponent | fixed | general | roundedPercent | rounded | thousands | percent => true
  | _ => false

end NumberStyle

/-- The names of the thousands prefixes, from `10 ^ -24` to `10 ^ 24`. -/
def thousandsPrefixes : List String :=
  ["y", "z", "a", "f", "p", "n", "\u00b5", "m", "", "k", "M", "G", "T", "P", "E", "Z", "Y"]

/-- The name of the thousands prefix with exponent `e`, a multiple of three. -/
def thousandsPrefix (e : Int) : String :=
  thousandsPrefixes.getD (8 + e / 3).toNat ""

/-- A specifier made ready for use. -/
structure NumberFormat where
  /-- The specifier, with the parts that its type implies. -/
  spec : FormatSpec
  /-- How digits are written. -/
  style : NumberStyle
  /-- The number of digits. -/
  precision : Nat
  /-- The text between sign and digits. -/
  lead : String
  /-- The text after the digits. -/
  tail : String
  /-- A fixed factor, and the name of the unit that it stands for. -/
  unit : Option (Float × String)
deriving DecidableEq

def minusSign : Char := '\u2212'

/-- The digits of `n` in `base`, least significant first; none for zero. -/
def baseDigitsRev (base n : Nat) : List Nat :=
  if n = 0 ∨ base < 2 then []
  else n % base :: baseDigitsRev base (n / base)
termination_by n
decreasing_by exact Nat.div_lt_self (by omega) (by omega)

/-- A digit up to fifteen, with small or capital letters. -/
def baseDigitChar (upper : Bool) (d : Nat) : Char :=
  Char.ofNat (if d < 10 then 48 + d else if upper then 55 + d else 87 + d)

/-- The text of a natural number in a base of at most sixteen. -/
def baseChars (base : Nat) (upper : Bool) (n : Nat) : List Char :=
  if n = 0 then ['0'] else (baseDigitsRev base n).reverse.map (baseDigitChar upper)

/-- A non-negative number rounded to an integer of 64 bits. -/
def toWord (x : Float) : Nat :=
  (clampInt 0 18446744073709551615 (round x)).toNat

/-- The digits of a non-negative number, and the exponent of the thousands prefix in use. -/
def NumberStyle.chars (style : NumberStyle) (x : Float) (precision : Nat) :
    Except Fault (List Char × Int) :=
  match style with
  | percent => pure (fixedChars (x * 100) precision, 0)
  | binary => pure (baseChars 2 false (toWord x), 0)
  | octal => pure (baseChars 8 false (toWord x), 0)
  | hexLower => pure (baseChars 16 false (toWord x), 0)
  | hexUpper => pure (baseChars 16 true (toWord x), 0)
  | integer => pure (ChartTemplate.numberChars (round x), 0)
  | exponent => do pure (← exponentialChars x precision, 0)
  | fixed => pure (fixedChars x precision, 0)
  | general => do pure (← precisionChars x precision, 0)
  | roundedPercent => pure (roundedChars (x * 100) precision, 0)
  | rounded => pure (roundedChars x precision, 0)
  | thousands => pure (prefixedChars x precision)
  | character => pure (ChartTemplate.numberChars x, 0)

namespace NumberFormat

/-- Resolves the type of a specifier. An unknown type shows at most twelve significant digits. -/
def ofSpec (spec : FormatSpec) : NumberFormat :=
  let (style, comma, trim, precision) :=
    match spec.kind with
    | some 'n' => (NumberStyle.general, true, spec.trim, spec.precision)
    | kind =>
      match kind.bind NumberStyle.ofChar? with
      | some style => (style, spec.comma, spec.trim, spec.precision)
      | none => (NumberStyle.general, spec.comma, true, some (spec.precision.getD 12))
  let zero := spec.zero || (spec.fill == '0' && spec.align == .afterSign)
  let spec := { spec with
    comma, trim, zero
    fill := if zero then '0' else spec.fill
    align := if zero then .afterSign else spec.align }
  { spec, style
    precision := match precision with
      | none => 6
      | some p => if style.isSignificant then max 1 (min p 21) else min p 20
    lead := match spec.symbol with
      | some .currency => "$"
      | some .baseMark => style.baseMark
      | none => ""
    tail := if spec.symbol != some .currency && style.isPercent then "%" else ""
    unit := none }

/-- Reads a specifier and makes it ready for use. -/
def ofText (specifier : String) : Except FormatError NumberFormat :=
  (FormatSpec.parse specifier).map ofSpec

/-- A fixed-place format in units of the thousands prefix of `reference`. -/
def withThousands (spec : FormatSpec) (reference : Float) : NumberFormat :=
  let e := prefixExponent (exponentOf reference)
  { ofSpec { spec with kind := some 'f' } with
    unit := some (powInt 10 (-e), thousandsPrefix e) }

structure Pieces where
  /-- Sign and symbol. -/
  lead : List Char
  /-- The digits that may be grouped. -/
  body : List Char
  /-- What follows them. -/
  tail : List Char

def signChars (mode : SignMode) (negative : Bool) : List Char :=
  match negative, mode with
  | true, .parens => ['(']
  | true, _ => [minusSign]
  | false, .plus => ['+']
  | false, .space => [' ']
  | false, _ => []

def readsZero (cs : List Char) : Bool :=
  match readFloat? (String.ofList cs) with
  | some x => x == 0
  | none => false

/-- Writes the digits of a number and splits them from what follows. -/
def pieces (f : NumberFormat) (x : Float) : Except Fault Pieces := do
  if f.style == .character then
    return { lead := f.lead.toList, body := [], tail := ChartTemplate.numberChars x ++ f.tail.toList }
  let (text, exponent) ←
    if x.isNaN then pure ("NaN".toList, (0 : Int)) else f.style.chars x.abs f.precision
  let text := if f.spec.trim then trimInsignificant text else text
  let negative := (x < 0 || (x == 0 && signBit x)) && !(readsZero text && f.spec.sign != .plus)
  let unit := if f.style == .thousands then (thousandsPrefix exponent).toList else []
  let close := if negative && f.spec.sign == .parens then [')'] else []
  let tail := unit ++ f.tail.toList ++ close
  let (body, tail) :=
    if f.style.splitsSuffix then
      (text.takeWhile Char.isDigit, text.dropWhile Char.isDigit ++ tail)
    else (text, tail)
  return { lead := signChars f.spec.sign negative ++ f.lead.toList, body, tail }

/-- Puts grouped and padded pieces together. -/
def assemble (spec : FormatSpec) (p : Pieces) : List Char :=
  let body := if spec.comma && !spec.zero then group none p.body else p.body
  let width := spec.width.getD 0
  let padding := List.replicate (width - (p.lead.length + body.length + p.tail.length)) spec.fill
  let (body, padding) :=
    if spec.comma && spec.zero then
      let limit := if padding.isEmpty then none else some (width - p.tail.length)
      (group limit (padding ++ body), [])
    else (body, padding)
  match spec.align with
  | .left => p.lead ++ body ++ p.tail ++ padding
  | .afterSign => p.lead ++ padding ++ body ++ p.tail
  | .center =>
    let half := padding.length / 2
    padding.take half ++ p.lead ++ body ++ p.tail ++ padding.drop half
  | .right => padding ++ p.lead ++ body ++ p.tail

/-- Writes a number without regard to the fixed unit. -/
def formatUnscaled (f : NumberFormat) (x : Float) : Except Fault (List Char) :=
  (f.pieces x).map (assemble f.spec)

def format (f : NumberFormat) (x : Float) : Except Fault String :=
  match f.unit with
  | some (k, name) => (f.formatUnscaled (k * x)).map fun cs => String.ofList (cs ++ name.toList)
  | none => (f.formatUnscaled x).map String.ofList

end NumberFormat

end ChartTemplate
