import ChartTemplate.Numeric.Read

/-!
# Number format specifiers

A specifier is a text of the form

    [[fill]align][sign][symbol][0][width][,][.precision][~][type]

`FormatSpec.parse` accepts exactly this form; an absent part has its default.
-/

namespace ChartTemplate

/-- Where padding goes. -/
inductive Align where
  /-- After the number. -/
  | left
  /-- Before the number. -/
  | right
  /-- Between the sign and the digits. -/
  | afterSign
  | center
deriving DecidableEq, Repr

inductive SignMode where
  /-- A minus sign on negative numbers only. -/
  | minus
  /-- A plus sign on the others. -/
  | plus
  /-- Parentheses around negative numbers. -/
  | parens
  /-- A space before the others. -/
  | space
deriving DecidableEq, Repr

/-- What is written between sign and digits. -/
inductive FormatSymbol where
  | currency
  /-- The mark of a number base. -/
  | baseMark
deriving DecidableEq, Repr

structure FormatSpec where
  /-- The character of the padding. -/
  fill : Char := ' '
  /-- Where the padding goes. -/
  align : Align := .right
  /-- How the sign is written. -/
  sign : SignMode := .minus
  /-- What stands between sign and digits. -/
  symbol : Option FormatSymbol := none
  /-- Whether padding is with zeros after the sign. -/
  zero : Bool := false
  width : Option Nat := none
  /-- Whether thousands are separated. -/
  comma : Bool := false
  /-- The number of digits. -/
  precision : Option Nat := none
  /-- Whether insignificant zeros are dropped. -/
  trim : Bool := false
  /-- The letter of the type, or a percent sign. -/
  kind : Option Char := none
deriving DecidableEq, Repr

structure FormatError where
  specifier : String
deriving DecidableEq, Repr

def FormatError.message (e : FormatError) : String :=
  "invalid format: " ++ e.specifier

namespace Align

def ofChar? : Char → Option Align
  | '<' => some left
  | '>' => some right
  | '=' => some afterSign
  | '^' => some center
  | _ => none

def char : Align → Char
  | left => '<'
  | right => '>'
  | afterSign => '='
  | center => '^'

end Align

namespace SignMode

def ofChar? : Char → Option SignMode
  | '+' => some plus
  | '-' => some minus
  | '(' => some parens
  | ' ' => some space
  | _ => none

def char : SignMode → Char
  | plus => '+'
  | minus => '-'
  | parens => '('
  | space => ' '

end SignMode

namespace FormatSymbol

def ofChar? : Char → Option FormatSymbol
  | '$' => some currency
  | '#' => some baseMark
  | _ => none

def char : FormatSymbol → Char
  | currency => '$'
  | baseMark => '#'

end FormatSymbol

namespace FormatSpec

/-- The greatest width that a specifier may ask for. -/
def maxWidth : Nat := 1024

/-- The greatest precision that can be written. -/
def maxPrecision : Nat := 18446744073709551615

/-- Takes the first character if `f` knows it. -/
def takeChar {α : Type} (f : Char → Option α) : List Char → Option α × List Char
  | [] => (none, [])
  | c :: cs =>
    match f c with
    | some a => (some a, cs)
    | none => (none, c :: cs)

def takeFlag (c : Char) (cs : List Char) : Bool × List Char :=
  match cs with
  | [] => (false, [])
  | d :: ds => if d = c then (true, ds) else (false, d :: ds)

/-- Takes an alignment, perhaps with a fill character before it. -/
def takeAlign (cs : List Char) : Option (Option Char × Align) × List Char :=
  match cs with
  | c :: d :: r =>
    match Align.ofChar? d with
    | some a => (some (some c, a), r)
    | none =>
      match Align.ofChar? c with
      | some a => (some (none, a), d :: r)
      | none => (none, cs)
  | [c] =>
    match Align.ofChar? c with
    | some a => (some (none, a), [])
    | none => (none, cs)
  | [] => (none, [])

/-- Takes a number of at most `limit`. -/
def takeNat (limit : Nat) (cs : List Char) : Option Nat × List Char :=
  let ds := cs.takeWhile Char.isDigit
  if ds.isEmpty || limit < natOfChars ds then (none, cs)
  else (some (natOfChars ds), cs.dropWhile Char.isDigit)

def takePrecision (cs : List Char) : Option Nat × List Char :=
  match cs with
  | '.' :: r =>
    match takeNat maxPrecision r with
    | (some p, r) => (some p, r)
    | (none, _) => (none, cs)
  | _ => (none, cs)

/-- A letter, or a percent sign. -/
def kind? (c : Char) : Option Char :=
  if c.isAlpha || c == '%' then some c else none

/-- Takes the parts of a specifier from the start of a text. -/
def take (cs : List Char) : FormatSpec × List Char :=
  let (fillAlign, cs) := takeAlign cs
  let (sign, cs) := takeChar SignMode.ofChar? cs
  let (symbol, cs) := takeChar FormatSymbol.ofChar? cs
  let (zero, cs) := takeFlag '0' cs
  let (width, cs) := takeNat maxWidth cs
  let (comma, cs) := takeFlag ',' cs
  let (precision, cs) := takePrecision cs
  let (trim, cs) := takeFlag '~' cs
  let (kind, cs) := takeChar kind? cs
  let spec : FormatSpec :=
    { fill := (fillAlign.bind Prod.fst).getD ' '
      align := (fillAlign.map Prod.snd).getD .right
      sign := sign.getD .minus
      symbol, zero, width, comma, precision, trim, kind }
  (spec, cs)

def parse (text : String) : Except FormatError FormatSpec :=
  match take text.toList with
  | (spec, []) => .ok spec
  | (_, _ :: _) => .error ⟨text⟩

end FormatSpec

end ChartTemplate
