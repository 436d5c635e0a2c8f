import ChartTemplate.Json.Basic
import ChartTemplate.Numeric.Read

/-!
# Reading JSON text

`Json.parse?` reads one document and nothing after it. Containers may be nested 127 deep; lone
surrogates and numbers beyond the range of a float are refused. A repeated key keeps its first place
and its last value.

A number that is no 64-bit integer is read as a 64-bit significand, of which digits that no longer
fit are dropped, scaled by a power of ten in floating point.
-/

namespace ChartTemplate.Json

namespace Read

def isBlank (c : Char) : Bool :=
  c == ' ' || c == '\n' || c == '\t' || c == '\r'

def skipBlanks (cs : List Char) : List Char :=
  cs.dropWhile isBlank

/-- The value of a hexadecimal digit. -/
def hexValue? (c : Char) : Option Nat :=
  if c.isDigit then some (c.toNat - 48)
  else if 'a' ≤ c ∧ c ≤ 'f' then some (c.toNat - 87)
  else if 'A' ≤ c ∧ c ≤ 'F' then some (c.toNat - 55)
  else none

/-- Reads four hexadecimal digits. -/
def hex4? : List Char → Option (Nat × List Char)
  | a :: b :: c :: d :: r => do
    let a ← hexValue? a
    let b ← hexValue? b
    let c ← hexValue? c
    let d ← hexValue? d
    pure (((a * 16 + b) * 16 + c) * 16 + d, r)
  | _ => none

/-- Reads the digits of a unicode escape, which for characters beyond 16 bits is a pair of them. -/
def unicodeEscape? (cs : List Char) : Option (Char × List Char) := do
  let (n, r) ← hex4? cs
  if 0xD800 ≤ n ∧ n < 0xDC00 then
    match r with
    | '\\' :: 'u' :: r =>
      let (m, r) ← hex4? r
      if 0xDC00 ≤ m ∧ m < 0xE000 then
        pure (Char.ofNat (0x10000 + (n - 0xD800) * 0x400 + (m - 0xDC00)), r)
      else none
    | _ => none
  else if 0xDC00 ≤ n ∧ n < 0xE000 then none
  else pure (Char.ofNat n, r)

/-- Reads what follows a backslash. -/
def escape? : List Char → Option (Char × List Char)
  | '"' :: r => some ('"', r)
  | '\\' :: r => some ('\\', r)
  | '/' :: r => some ('/', r)
  | 'b' :: r => some (Char.ofNat 8, r)
  | 'f' :: r => some (Char.ofNat 12, r)
  | 'n' :: r => some ('\n', r)
  | 'r' :: r => some ('\r', r)
  | 't' :: r => some ('\t', r)
  | 'u' :: r => unicodeEscape? r
  | _ => none

/-- Reads the rest of a text up to its closing quote. The first argument bounds the number of
characters. -/
def textBody? : Nat → List Char → Option (List Char × List Char)
  | 0, _ => none
  | _ + 1, [] => none
  | fuel + 1, c :: r =>
    if c == '"' then some ([], r)
    else if c == '\\' then do
      let (d, r) ← escape? r
      let (s, r) ← textBody? fuel r
      pure (d :: s, r)
    else if c.toNat < 32 then none
    else do
      let (s, r) ← textBody? fuel r
      pure (c :: s, r)

/-- The greatest significand that is kept. -/
def maxSignificand : Nat := 18446744073709551615

/-- Reads digits into a significand as long as it fits; returns it with the number of digits taken
and the text that follows them. -/
def significand (n : Nat) : List Char → Nat × Nat × List Char
  | [] => (n, 0, [])
  | c :: r =>
    if c.isDigit then
      let m := n * 10 + digitValue c
      if maxSignificand < m then (n, 0, c :: r)
      else
        let (m, k, r) := significand m r
        (m, k + 1, r)
    else (n, 0, c :: r)

/-- Scales `f` by a power of ten, in steps that stay within the range of the table of powers. -/
def scaleByTen? (f : Float) (e : Int) : Option Float :=
  if e.natAbs ≤ 308 then
    let pow := Float.ofScientific 1 false e.natAbs
    if 0 ≤ e then
      let r := f * pow
      if r.isInf then none else some r
    else some (f / pow)
  else if f == 0 then some f
  else if 0 ≤ e then none
  else scaleByTen? (f / 1e308) (e + 308)
termination_by e.natAbs
decreasing_by omega

/-- The sign of an exponent, negative or not, and the text after it. -/
def exponentSign : List Char → Bool × List Char
  | '+' :: r => (false, r)
  | '-' :: r => (true, r)
  | r => (false, r)

/-- Scales a significand by the power of ten that the digits of an exponent name. -/
def withExponent? (mant : Nat) (e : Int) (below : Bool) (ds : List Char) : Option Float :=
  if ds.isEmpty then none
  else
    let n := natOfChars ds
    if 2147483647 < n then
      if mant != 0 && !below then none else some 0
    else
      let e := if below then e - n else e + n
      scaleByTen? mant.toUInt64.toFloat (max (-2147483648) (min 2147483647 e))

/-- Reads the exponent of a number, after its mark, and gives the scaled value. -/
def exponent? (mant : Nat) (e : Int) (cs : List Char) : Option (Float × List Char) :=
  let (below, r) := exponentSign cs
  (withExponent? mant e below (r.takeWhile Char.isDigit)).map (·, r.dropWhile Char.isDigit)

/-- Reads what may follow the integer digits and fraction digits of a number: an exponent. -/
def scaledNumber? (mant : Nat) (e : Int) (cs : List Char) : Option (Float × List Char) :=
  match cs with
  | 'e' :: r => exponent? mant e r
  | 'E' :: r => exponent? mant e r
  | r => (scaleByTen? mant.toUInt64.toFloat e).map (·, r)

/-- Reads the digits after a point, of which there must be one, and an exponent. -/
def fraction? (mant : Nat) (e : Int) (cs : List Char) : Option (Float × List Char) :=
  let (n, k, r) := significand mant cs
  let full := r.takeWhile Char.isDigit
  if k = 0 ∧ full = [] then none
  else scaledNumber? n (e - k) (r.dropWhile Char.isDigit)

/-- Reads the whole part of a number from its first digit `c` on: a zero alone, or a significand with
the number of digits that were dropped. -/
def wholePart (c : Char) (r : List Char) : Nat × Nat × List Char :=
  if c == '0' then (0, 0, r)
  else
    let (n, _, r) := significand 0 (c :: r)
    (n, (r.takeWhile Char.isDigit).length, r.dropWhile Char.isDigit)

/-- The number that has a whole part alone: an exact integer if no digit was dropped. -/
def wholeNumber? (n dropped : Nat) : Option (Nat ⊕ Float) :=
  if dropped = 0 then some (.inl n) else (scaleByTen? n.toUInt64.toFloat dropped).map .inr

/-- Reads what may follow the whole part of a number. -/
def afterWhole? (n dropped : Nat) (cs : List Char) : Option ((Nat ⊕ Float) × List Char) :=
  match cs with
  | '.' :: r => (fraction? n dropped r).map fun (x, r) => (.inr x, r)
  | 'e' :: r => (exponent? n dropped r).map fun (x, r) => (.inr x, r)
  | 'E' :: r => (exponent? n dropped r).map fun (x, r) => (.inr x, r)
  | d :: r => if d.isDigit then none else (wholeNumber? n dropped).map (·, d :: r)
  | [] => (wholeNumber? n dropped).map (·, [])

/-- Reads a number without its sign: an exact integer, or a float. -/
def unsigned? (cs : List Char) : Option ((Nat ⊕ Float) × List Char) :=
  match cs with
  | [] => none
  | c :: r =>
    if !c.isDigit then none
    else
      let (n, dropped, r) := wholePart c r
      afterWhole? n dropped r

/-- A number without a sign. -/
def positive : Nat ⊕ Float → JsonNumber
  | .inl n => .int n
  | .inr x => .float x

/-- A number with a minus sign. An integer below 64 signed bits, and negative zero, are floats. -/
def negative : Nat ⊕ Float → JsonNumber
  | .inl n =>
    if n = 0 ∨ 9223372036854775808 < n then .float (-n.toUInt64.toFloat) else .int (-(n : Int))
  | .inr x => .float (-x)

def number? (cs : List Char) : Option (JsonNumber × List Char) :=
  match cs with
  | '-' :: r => (unsigned? r).map fun (x, r) => (negative x, r)
  | r => (unsigned? r).map fun (x, r) => (positive x, r)

mutual

/-- Reads one document. The first argument bounds the number of steps, the second the depth of
containers. -/
def value? : Nat → Nat → List Char → Option (Json × List Char)
  | 0, _, _ => none
  | fuel + 1, depth, cs =>
    match skipBlanks cs with
    | 'n' :: 'u' :: 'l' :: 'l' :: r => some (null, r)
    | 't' :: 'r' :: 'u' :: 'e' :: r => some (bool true, r)
    | 'f' :: 'a' :: 'l' :: 's' :: 'e' :: r => some (bool false, r)
    | '"' :: r => (textBody? (r.length + 1) r).map fun (s, r) => (str (String.ofList s), r)
    | '[' :: r =>
      match depth with
      | 0 => none
      | depth + 1 =>
        match skipBlanks r with
        | ']' :: r => some (arr [], r)
        | r => (items? fuel depth r).map fun (js, r) => (arr js, r)
    | '{' :: r =>
      match depth with
      | 0 => none
      | depth + 1 =>
        match skipBlanks r with
        | '}' :: r => some (obj [], r)
        | r => (members? fuel depth r).map fun (ms, r) => (obj (Entries.ofList ms), r)
    | r => (number? r).map fun (n, r) => (num n, r)

/-- Reads the items of an array up to its closing bracket. -/
def items? : Nat → Nat → List Char → Option (List Json × List Char)
  | 0, _, _ => none
  | fuel + 1, depth, cs => do
    let (j, r) ← value? fuel depth cs
    match skipBlanks r with
    | ',' :: r =>
      let (js, r) ← items? fuel depth r
      pure (j :: js, r)
    | ']' :: r => pure ([j], r)
    | _ => none

/-- Reads the members of an object up to its closing brace. -/
def members? : Nat → Nat → List Char → Option (List (String × Json) × List Char)
  | 0, _, _ => none
  | fuel + 1, depth, cs =>
    match skipBlanks cs with
    | '"' :: r => do
      let (k, r) ← textBody? (r.length + 1) r
      match skipBlanks r with
      | ':' :: r =>
        let (j, r) ← value? fuel depth r
        match skipBlanks r with
        | ',' :: r =>
          let (ms, r) ← members? fuel depth r
          pure ((String.ofList k, j) :: ms, r)
        | '}' :: r => pure ([(String.ofList k, j)], r)
        | _ => none
      | _ => none
    | _ => none

end

end Read

/-- How deep containers may be nested. -/
def maxDepth : Nat := 127

/-- Reads a text that holds one document and blanks around it. -/
def parseChars? (cs : List Char) : Option Json :=
  match Read.value? (2 * cs.length + 2) maxDepth cs with
  | some (j, r) => if (Read.skipBlanks r).isEmpty then some j else none
  | none => none

/-- Reads a text that holds one document and blanks around it. -/
def parse? (text : String) : Option Json :=
  parseChars? text.toList

/-- Reads a text that holds a number and nothing else. -/
def readNumber? (text : String) : Option JsonNumber :=
  match Read.number? text.toList with
  | some (n, []) => some n
  | _ => none

end ChartTemplate.Json
