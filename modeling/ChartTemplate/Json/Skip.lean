import ChartTemplate.Json.Parser

/-!
# Passing over JSON text

`Json.Read.skipValue?` gives what follows a document without building it. Numbers of any size, lone
surrogates and containers nested to any depth are passed over.
-/

namespace ChartTemplate.Json.Read

/-- The text after at least one digit. -/
def skipDigits? (cs : List Char) : Option (List Char) :=
  if (cs.takeWhile Char.isDigit).isEmpty then none else some (cs.dropWhile Char.isDigit)

/-- The text after an integer part: a zero alone, or digits. -/
def skipInteger? : List Char → Option (List Char)
  | '0' :: c :: r => if c.isDigit then none else some (c :: r)
  | cs => skipDigits? cs

def skipFraction? : List Char → Option (List Char)
  | '.' :: r => skipDigits? r
  | cs => some cs

def skipExponent? (cs : List Char) : Option (List Char) :=
  match cs with
  | c :: r =>
    if c == 'e' || c == 'E' then
      match r with
      | '+' :: r => skipDigits? r
      | '-' :: r => skipDigits? r
      | r => skipDigits? r
    else some cs
  | [] => some cs

def skipNumber? (cs : List Char) : Option (List Char) :=
  let r := match cs with
    | '-' :: r => r
    | r => r
  (skipInteger? r).bind fun r => (skipFraction? r).bind skipExponent?

/-- The text after the closing quote of a text. -/
def skipText? : List Char → Option (List Char)
  | [] => none
  | '"' :: r => some r
  | '\\' :: 'u' :: a :: b :: c :: d :: r =>
    if [a, b, c, d].all fun x => (hexValue? x).isSome then skipText? r else none
  | '\\' :: c :: r =>
    if ['"', '\\', '/', 'b', 'f', 'n', 'r', 't'].contains c then skipText? r else none
  | c :: r => if c.toNat < 32 || c == '\\' then none else skipText? r

mutual

/-- The text after a document. The first argument bounds the number of steps. -/
def skipValue? : Nat → List Char → Option (List Char)
  | 0, _ => none
  | fuel + 1, cs =>
    match skipBlanks cs with
    | 'n' :: 'u' :: 'l' :: 'l' :: r => some r
    | 't' :: 'r' :: 'u' :: 'e' :: r => some r
    | 'f' :: 'a' :: 'l' :: 's' :: 'e' :: r => some r
    | '"' :: r => skipText? r
    | '[' :: r =>
      match skipBlanks r with
      | ']' :: r => some r
      | r => skipItems? fuel r
    | '\x7b' :: r =>
      match skipBlanks r with
      | '\x7d' :: r => some r
      | r => skipMembers? fuel r
    | r => skipNumber? r

/-- The text after the items of an array and its closing bracket. -/
def skipItems? : Nat → List Char → Option (List Char)
  | 0, _ => none
  | fuel + 1, cs => do
    let r ← skipValue? fuel cs
    match skipBlanks r with
    | ',' :: r => skipItems? fuel r
    | ']' :: r => some r
    | _ => none

/-- The text after the members of an object and its closing brace. -/
def skipMembers? : Nat → List Char → Option (List Char)
  | 0, _ => none
  | fuel + 1, cs =>
    match skipBlanks cs with
    | '"' :: r => do
      let r ← skipText? r
      match skipBlanks r with
      | ':' :: r =>
        let r ← skipValue? fuel r
        match skipBlanks r with
        | ',' :: r => skipMembers? fuel r
        | '\x7d' :: r => some r
        | _ => none
      | _ => none
    | _ => none

end

end ChartTemplate.Json.Read
