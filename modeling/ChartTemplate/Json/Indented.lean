import ChartTemplate.Json.Printer

/-!
# Indented JSON text

`Json.indented` gives each item and each member a line of its own, two spaces deeper than what holds
it. Empty containers stay on their line.
-/

namespace ChartTemplate.Json

/-- A line break and the spaces before what is nested `depth` deep. -/
def lineStart (depth : Nat) : List Char :=
  '\n' :: List.replicate (2 * depth) ' '

/-- Puts entries on lines of their own between brackets. -/
def enclose (depth : Nat) (first last : Char) (entries : List (List Char)) : List Char :=
  if entries.isEmpty then [first, last]
  else
    first :: commaJoin (entries.map fun e => lineStart (depth + 1) ++ e) ++
      lineStart depth ++ [last]

mutual

/-- The characters of the indented text of a document that is nested `depth` deep. -/
def indentedChars (depth : Nat) : Json → List Char
  | arr js => enclose depth '[' ']' (indentedItems (depth + 1) js)
  | obj ms => enclose depth '\x7b' '\x7d' (indentedMembers (depth + 1) ms)
  | j => chars j

def indentedItems (depth : Nat) : List Json → List (List Char)
  | [] => []
  | j :: js => indentedChars depth j :: indentedItems depth js

def indentedMembers (depth : Nat) : List (String × Json) → List (List Char)
  | [] => []
  | (k, j) :: ms =>
    (quoteChars k.toList ++ ':' :: ' ' :: indentedChars depth j) :: indentedMembers depth ms

end

def indented (j : Json) : String :=
  String.ofList (indentedChars 0 j)

end ChartTemplate.Json
