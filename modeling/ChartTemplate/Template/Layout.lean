import ChartTemplate.Template.Tag
import ChartTemplate.Text.Blank

/-!
# The text between tags

`pieces` settles how much of the text beside a tag is written. A mark in a tag drops the blanks on its
side. A tag that opens, divides or closes a block, or says nothing, and that stands alone on its line,
takes the line with it: the spaces before it, and the spaces and the line break after it.
-/

namespace ChartTemplate

/-- A part of a template: text to be written, or a tag. -/
inductive Piece where
  | text (s : String)
  | tag (position : Position) (t : Tag)

/-- What the tags so far ask of the text that follows. -/
structure Pending where
  /-- Blanks are to be dropped. -/
  blanks : Bool
  /-- The rest of the line is to be dropped. -/
  line : Bool

namespace Pending

open Segment (isSpace)

def none : Pending := ⟨false, false⟩

def dropBreak : List Char → List Char
  | '\r' :: '\n' :: r => r
  | '\n' :: r => r
  | r => r

/-- Drops the rest of the line, if that is asked. -/
def trimLine (p : Pending) (cs : List Char) : List Char :=
  if p.line then dropBreak (cs.dropWhile isSpace) else cs

/-- Drops what is asked at the start of a text. -/
def trimStart (p : Pending) (cs : List Char) : List Char :=
  if p.blanks then trimLeft cs else p.trimLine cs

def written (p : Pending) : Pending := { p with line := false }

def afterTag (p : Pending) (t : PlacedTag) : Pending :=
  match t.tag with
  | .value _ _ | .computed _ _ => ⟨t.trimsAfter, p.line⟩
  | .comment => ⟨p.blanks, t.alone⟩
  | _ => ⟨t.trimsAfter, t.alone⟩

end Pending

/-- Drops what a tag asks at the end of the text before it. -/
def PlacedTag.trimEnd (t : PlacedTag) (cs : List Char) : List Char :=
  let cs := if t.trimsBefore then trimRight cs else cs
  match t.tag with
  | .value _ _ | .computed _ _ => cs
  | _ => if t.alone then (cs.reverse.dropWhile Segment.isSpace).reverse else cs

/-- Drops what a tag that follows asks at the end of a text. -/
def trimBefore (ss : List Segment) (cs : List Char) : List Char :=
  match ss with
  | .tag t :: _ => t.trimEnd cs
  | _ => cs

/-- The pieces of the segments that follow tags. -/
def piecesAfter : Pending → List Segment → List Piece
  | _, [] => []
  | p, .text cs :: ss =>
    .text (String.ofList (trimBefore ss (p.trimStart cs))) :: piecesAfter p.written ss
  | p, .blanks cs :: ss =>
    if p.blanks then piecesAfter p ss
    else .text (String.ofList (trimBefore ss (p.trimLine cs))) :: piecesAfter p.written ss
  | p, .tail cs :: ss =>
    if p.blanks then piecesAfter p ss
    else .text (String.ofList (p.trimLine cs)) :: piecesAfter p.written ss
  | p, .tag t :: ss => .tag t.position t.tag :: piecesAfter (p.afterTag t) ss

def pieces (ss : List Segment) : List Piece :=
  piecesAfter .none ss

end ChartTemplate
