import ChartTemplate.Template.Expression
import ChartTemplate.Template.Position

/-!
# Tags of templates

A template is text with tags between double braces. `Segment.ofTemplate?` splits it into text, the
blanks between two tags, and tags with their positions; it fails where a tag cannot be read.

A backslash before the braces takes their meaning away. Between quadruple braces, text is taken as it
stands.
-/

namespace ChartTemplate

open Json.Read (skipBlanks)

/-- A call as the head of a block, with the names that the block gives to what it binds. -/
structure Invocation where
  name : String
  arguments : List Argument
  /-- The names that are bound within the block. -/
  binders : List String

inductive Tag where
  /-- Writes a path's value or a call's result. -/
  | value (escaped : Bool) (e : Expression)
  /-- Writes what a call in parentheses gives. -/
  | computed (escaped : Bool) (e : Expression)
  | opening (head : Invocation)
  /-- Starts the alternative of a block, which may be a block by itself. -/
  | otherwise (head : Option Invocation)
  | closing (name : String)
  | comment
  /-- Inserts another template, of which an expression gives the name. -/
  | insertion (name : Expression) (arguments : List Argument)
  /-- Starts the body of a tag that inserts another template. -/
  | openingInsertion (name : Expression) (arguments : List Argument)
  /-- Calls a decorator. -/
  | decoration (head : Invocation)
  /-- Starts the body of a call of a decorator. -/
  | openingDecoration (head : Invocation)

structure ReadTag where
  tag : Tag
  /-- Whether the blanks before it are to be dropped. -/
  trimsBefore : Bool
  /-- Whether the blanks after it are to be dropped. -/
  trimsAfter : Bool

structure PlacedTag extends ReadTag where
  position : Position
  /-- Whether there are only blanks beside it on its line. -/
  alone : Bool

inductive Segment where
  /-- Text before the first tag or with more than blanks. -/
  | text (cs : List Char)
  /-- Blanks between two tags. -/
  | blanks (cs : List Char)
  /-- Blanks at the end. -/
  | tail (cs : List Char)
  | tag (t : PlacedTag)

namespace Tag

open Expression

/-! ## The inside of tags -/

/-- Reads the mark that drops blanks. -/
def tilde : List Char → Bool × List Char
  | '~' :: r => (true, r)
  | cs => (false, cs)

/-- Reads the end of a tag: a mark that drops blanks, and closing braces. -/
def finish? (braces : List Char) (cs : List Char) : Option (Bool × List Char) := do
  let (trims, r) := tilde (skipBlanks cs)
  let r ← strip? braces (skipBlanks r)
  return (trims, r)

def closing2 : List Char := ['\x7d', '\x7d']

/-- Reads the names that a block binds. -/
def binders? (cs : List Char) : Option (List String × List Char) := do
  let r ← strip? ['a', 's'] cs
  let r ← strip? ['|'] (skipBlanks r)
  let (a, r) ← identifier? (skipBlanks r)
  let (bs, r) := match identifier? (skipBlanks r) with
    | some (b, r) => ([b], r)
    | none => ([], r)
  let r ← strip? ['|'] (skipBlanks r)
  return (a :: bs, r)

/-- Reads the head of a block. -/
def invocation? (cs : List Char) : Option (Invocation × List Char) := do
  let (name, r) ← identifier? cs
  let (as, r) := arguments (Expression.steps r) r
  match binders? (skipBlanks r) with
  | some (bs, r) => return (⟨name, as, bs⟩, r)
  | none => return (⟨name, as, []⟩, r)

/-- Reads a path, or a call in parentheses. -/
def subject? (escaped : Bool) (cs : List Char) : Option (Tag × List Char) :=
  (enclosed? (Expression.steps cs) cs).map (fun p => (.computed escaped p.1, p.2)) <|>
    (reference? cs).map fun p => (.value escaped (.reference p.1), p.2)

/-- Reads a call, a path, or a call in parentheses. -/
def content? (escaped : Bool) (cs : List Char) : Option (Tag × List Char) :=
  (call? (Expression.steps cs) cs).map (fun p => (.value escaped p.1, p.2)) <|> subject? escaped cs

/-- Reads the word that starts an alternative. -/
def otherwiseWord? (cs : List Char) : Option (List Char) :=
  strip? ['e', 'l', 's', 'e'] cs <|> strip? ['^'] cs

/-- Reads the inside of an alternative with a head, or without one. -/
def otherwise? (cs : List Char) : Option (Tag × List Char) := do
  let r ← otherwiseWord? cs
  match invocation? (skipBlanks r) with
  | some (head, r) => return (.otherwise (some head), r)
  | none => return (.otherwise none, r)

/-! ## Other templates -/

def isInsertionChar (c : Char) : Bool :=
  isWordChar c || c == '/' || c == '.'

/-- The rest after a single quote. A backslash takes the meaning of a quote away. -/
def singleQuoteRest? : List Char → Option (List Char)
  | [] => none
  | '\\' :: '\'' :: r => singleQuoteRest? r
  | c :: r => if c == '\'' then some r else singleQuoteRest? r

/-- Reads a name in single quotes, which belong to it. It is not empty. -/
def quotedName? (cs : List Char) : Option (String × List Char) :=
  match cs with
  | '\'' :: '\'' :: _ => none
  | '\'' :: r => (singleQuoteRest? r).map fun rest => (String.ofList (consumed cs rest), rest)
  | _ => none

def insertionName? (cs : List Char) : Option (String × List Char) :=
  let name := cs.takeWhile isInsertionChar
  if name.isEmpty then quotedName? cs
  else some (String.ofList name, cs.dropWhile isInsertionChar)

/-- Reads the expression that gives the name of another template: a name, a path, which stands for
itself, or a call in parentheses. -/
def insertionTarget? (cs : List Char) : Option (Expression × List Char) :=
  (insertionName? cs).map (fun p => (.literal (.str p.1), p.2)) <|>
    enclosed? (Expression.steps cs) cs <|>
      (reference? cs).map fun p => (.literal (.str p.1.source), p.2)

/-- Reads the name of another template and its arguments. -/
def insertion? (cs : List Char) : Option ((Expression × List Argument) × List Char) := do
  let (name, r) ← insertionTarget? cs
  let (as, r) := arguments (Expression.steps r) r
  return ((name, as), r)

/-- Reads the name under which a block is closed, or the body of a tag that inserts another template; it
may be missing. -/
def closingName (cs : List Char) : String × List Char :=
  let (name, r) := (identifier? cs).getD ("", cs)
  let (other, r') := (insertionName? cs).getD ("", cs)
  if r'.length < r.length then (other, r') else (name, r)

/-! ## Signs -/

/-- Reads the inside of a tag that starts a body, after its sign. -/
def opening? (cs : List Char) : Option (Tag × List Char) :=
  match cs with
  | '>' :: r => (insertion? (skipBlanks r)).map fun p => (.openingInsertion p.1.1 p.1.2, p.2)
  | '*' :: r => (invocation? (skipBlanks r)).map fun p => (.openingDecoration p.1, p.2)
  | cs => (invocation? cs).map fun p => (.opening p.1, p.2)

/-- Reads the inside of the tags that a sign starts. -/
def signed? (cs : List Char) : Option (Tag × List Char) :=
  match cs with
  | '#' :: r => opening? (skipBlanks r)
  | '/' :: r =>
    let (name, r) := closingName (skipBlanks r)
    some (.closing name, r)
  | '&' :: r => subject? false (skipBlanks r)
  | '>' :: r => (insertion? (skipBlanks r)).map fun p => (.insertion p.1.1 p.1.2, p.2)
  | '*' :: r => (invocation? (skipBlanks r)).map fun p => (.decoration p.1, p.2)
  | _ => none

/-! ## Whole tags -/

/-- Reads a tag between its opening and the given closing braces. -/
def between? (closing : List Char) (inside : List Char → Option (Tag × List Char))
    (cs : List Char) : Option (ReadTag × List Char) := do
  let (before, r) := tilde (skipBlanks cs)
  let (t, r) ← inside (skipBlanks r)
  let (after, r) ← finish? closing r
  return (⟨t, before, after⟩, r)

/-- Reads a tag with a third brace inside the first two, after those. -/
def braced? (cs : List Char) : Option (ReadTag × List Char) :=
  between? closing2 (fun cs => do
    let r ← strip? ['\x7b'] cs
    let (t, r) ← content? false (skipBlanks r)
    let r ← strip? ['\x7d'] (skipBlanks r)
    return (t, r)) cs

/-- Reads a tag with three braces, after two of them. -/
def tripled? (cs : List Char) : Option (ReadTag × List Char) :=
  (strip? ['\x7b'] cs).bind (between? ('\x7d' :: closing2) (content? false))

/-- Drops the text up to and including the given end. -/
def dropThrough? (stop : List Char) : List Char → Option (List Char)
  | [] => strip? stop []
  | c :: cs =>
    match strip? stop (c :: cs) with
    | some r => some r
    | none => dropThrough? stop cs

/-- Reads a comment, after the opening braces. One that starts with two hyphens goes on to two hyphens
before the closing braces, if there are such. -/
def comment? (cs : List Char) : Option (ReadTag × List Char) := do
  let r ← strip? ['!'] cs
  let long := (strip? ['-', '-'] (skipBlanks r)).bind (dropThrough? ('-' :: '-' :: closing2))
  let r ← long <|> dropThrough? closing2 r
  return (⟨.comment, false, false⟩, r)

/-- Reads the tag of an alternative, after the opening braces: one with a head if it can be. -/
def alternative? (cs : List Char) : Option (ReadTag × List Char) :=
  between? closing2 otherwise? cs

def read? (cs : List Char) : Option (ReadTag × List Char) :=
  alternative? cs <|> between? closing2 (content? true) cs <|> tripled? cs <|> braced? cs <|>
    between? closing2 signed? cs <|> comment? cs

/-! ## Blocks of raw text -/

def closing4 : List Char := closing2 ++ closing2

/-- Reads the tag that opens a block of raw text, after its braces. -/
def rawOpening? (cs : List Char) : Option (ReadTag × List Char) :=
  between? closing4 (fun cs => (invocation? cs).map fun p => (.opening p.1, p.2)) cs

/-- Reads the tag that closes a block of raw text, after its braces. -/
def rawClosing? (cs : List Char) : Option (ReadTag × List Char) :=
  between? closing4 (fun cs => do
    let r ← strip? ['/'] cs
    let (name, r) := closingName (skipBlanks r)
    return (.closing name, r)) cs

end Tag

namespace Segment

/-! ## Text -/

/-- Whether a text starts with `n` opening braces. -/
def opens (n : Nat) (cs : List Char) : Bool :=
  (cs.take n).length = n && (cs.take n).all fun c => c == '\x7b'

/-- Whether backslashes and then two opening braces follow. -/
def bracesFollow (cs : List Char) : Bool :=
  opens 2 (cs.dropWhile fun c => c == '\\')

/-- Splits a text before `n` opening braces. A backslash before two or four braces is dropped and
makes them text. Of two or more backslashes before two braces the first is dropped, and the flag says
that the others are being read. -/
def untilBraces (n : Nat) : Bool → List Char → List Char × List Char
  | _, [] => ([], [])
  | false, '\\' :: '\x7b' :: '\x7b' :: '\x7b' :: '\x7b' :: r =>
    let (t, r) := untilBraces n false r
    ('\x7b' :: '\x7b' :: '\x7b' :: '\x7b' :: t, r)
  | false, '\\' :: '\x7b' :: '\x7b' :: r =>
    let (t, r) := untilBraces n false r
    ('\x7b' :: '\x7b' :: t, r)
  | false, '\\' :: '\\' :: r =>
    let (t, r) := if bracesFollow r then untilBraces n true r else untilBraces n false ('\\' :: r)
    ('\\' :: t, r)
  | true, '\\' :: r =>
    let (t, r) := untilBraces n true r
    ('\\' :: t, r)
  | _, c :: r =>
    if opens n (c :: r) then ([], c :: r)
    else
      let (t, r) := untilBraces n false r
      (c :: t, r)
termination_by _ cs => cs.length

/-! ## Positions -/

structure Cursor where
  position : Position
  /-- Whether there are only blanks before it on its line. -/
  blankBefore : Bool

def Cursor.start : Cursor := ⟨.start, true⟩

def isSpace (c : Char) : Bool :=
  c == ' ' || c == '\t'

def isBreak (c : Char) : Bool :=
  c == '\n' || c == '\r'

def Cursor.next (p : Cursor) (c : Char) : Cursor :=
  ⟨p.position.next c, isBreak c || (isSpace c && p.blankBefore)⟩

/-- The place after what was read of a text that leaves the given rest. -/
def Cursor.over (p : Cursor) (cs rest : List Char) : Cursor :=
  (Expression.consumed cs rest).foldl Cursor.next p

/-- Whether nothing follows, or only blanks and a line break. -/
def blankAfter (cs : List Char) : Bool :=
  match cs with
  | [] => true
  | cs =>
    match cs.dropWhile isSpace with
    | c :: _ => isBreak c
    | [] => false

/-- A tag that was read at the given place and leaves the given rest. -/
def placed (p : Cursor) (t : ReadTag) (rest : List Char) : Segment :=
  .tag { t with position := p.position, alone := p.blankBefore && blankAfter rest }

/-! ## Templates -/

def tag? (p : Cursor) (cs : List Char) : Option (Segment × List Char) := do
  let (t, r) ← Tag.read? (cs.drop 2)
  return (placed p t r, r)

/-- Reads a block of raw text. Blanks at its start are dropped. -/
def rawBlock? (p : Cursor) (cs : List Char) : Option (List Segment × List Char) := do
  if !opens 4 cs then none
  let (first, r) ← Tag.rawOpening? (cs.drop 4)
  let (content, stop) := untilBraces 4 false (skipBlanks r)
  if !opens 4 stop then none
  let (last, rest) ← Tag.rawClosing? (stop.drop 4)
  return ([placed p first r, .text content, placed (p.over cs stop) last rest], rest)

def ofBlanks (cs : List Char) : List Segment :=
  if cs.isEmpty then [] else [.blanks cs]

/-- Splits a template from a place on. The number bounds the number of segments. -/
def readFrom? : Nat → Cursor → List Char → Option (List Segment)
  | 0, _, _ => none
  | _ + 1, _, [] => some []
  | fuel + 1, p, cs => do
    let blanks := if p.position = .start then [] else cs.takeWhile Json.Read.isBlank
    let r := cs.drop blanks.length
    if r.isEmpty then return [.tail blanks]
    else if opens 2 r then
      let here := p.over cs r
      let (found, rest) ← (tag? here r).map (fun t => ([t.1], t.2)) <|> rawBlock? here r
      let more ← readFrom? fuel (p.over cs rest) rest
      return ofBlanks blanks ++ found ++ more
    else
      let (content, rest) := untilBraces 2 false r
      let more ← readFrom? fuel (p.over cs rest) rest
      return .text (blanks ++ content) :: more

def ofTemplate? (cs : List Char) : Option (List Segment) :=
  readFrom? (cs.length + 1) .start cs

end Segment

end ChartTemplate
