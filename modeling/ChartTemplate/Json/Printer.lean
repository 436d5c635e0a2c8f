import ChartTemplate.Json.Basic
import ChartTemplate.Numeric.Text

/-!
# Compact JSON text

`Json.compress` writes a document without spaces, members in order, and characters beyond ASCII as
they are.
-/

namespace ChartTemplate.Json

/-- A lower-case hexadecimal digit. -/
def hexDigit (n : Nat) : Char :=
  if n < 10 then Char.ofNat (48 + n) else Char.ofNat (87 + n)

/-- The written form of one character of a text. -/
def escapeChar (c : Char) : List Char :=
  if c = '"' then ['\\', '"']
  else if c = '\\' then ['\\', '\\']
  else if c = '\n' then ['\\', 'n']
  else if c = '\r' then ['\\', 'r']
  else if c = '\t' then ['\\', 't']
  else if c.toNat = 8 then ['\\', 'b']
  else if c.toNat = 12 then ['\\', 'f']
  else if c.toNat < 32 then
    ['\\', 'u', '0', '0', hexDigit (c.toNat / 16), hexDigit (c.toNat % 16)]
  else [c]

def quoteChars (s : List Char) : List Char :=
  '"' :: s.flatMap escapeChar ++ ['"']

def numberChars : JsonNumber → List Char
  | .int n => intChars n
  | .float x => canonicalChars x

def commaJoin : List (List Char) → List Char
  | [] => []
  | [t] => t
  | t :: ts => t ++ ',' :: commaJoin ts

mutual

/-- The characters of the compact text of a document. -/
def chars : Json → List Char
  | null => "null".toList
  | bool true => "true".toList
  | bool false => "false".toList
  | num n => numberChars n
  | str s => quoteChars s.toList
  | arr js => '[' :: commaJoin (itemTexts js) ++ [']']
  | obj ms => '{' :: commaJoin (memberTexts ms) ++ ['}']

def itemTexts : List Json → List (List Char)
  | [] => []
  | j :: js => chars j :: itemTexts js

def memberTexts : List (String × Json) → List (List Char)
  | [] => []
  | (k, j) :: ms => (quoteChars k.toList ++ ':' :: chars j) :: memberTexts ms

end

def compress (j : Json) : String :=
  String.ofList j.chars

end ChartTemplate.Json
