import ChartTemplate.Json.Parser

/-!
# Expressions of templates

An expression is a path into the data, a literal, or a call of a helper with arguments. This module
reads them:

* `reference?` reads a path such as `../rows.[0].name` or `@index`,
* `literal?` reads a text, number, truth value, null, array or object,
* `expression?` reads what may stand as an argument, and `call?` a helper's name with its arguments.

Blanks may stand between the parts of a call and of a literal, but not within a path.
-/

namespace ChartTemplate

inductive PathStep where
  /-- To the root of the data. -/
  | root
  /-- To the variables that a block sets. -/
  | locals
  /-- To the enclosing block. -/
  | parent
  /-- To a member or an item. -/
  | key (name : String)
deriving DecidableEq, Repr

/-- A path as it was written, and its steps. -/
structure Reference where
  /-- The path as it was written. -/
  source : String
  steps : List PathStep
deriving DecidableEq, Repr

inductive Expression where
  | reference (r : Reference)
  | literal (value : Json)
  /-- What looks like a literal but is none. -/
  | malformed (text : String)
  /-- A call of a helper; arguments may be named. -/
  | call (name : String) (arguments : List (Option String × Expression))
deriving Inhabited

/-- An argument of a call, and its name if it has one. -/
abbrev Argument := Option String × Expression

def positional (as : List Argument) : List Expression :=
  (as.filter fun a => a.1.isNone).map Prod.snd

namespace Expression

open Json.Read (skipBlanks)

/-- The characters of words: ASCII letters and digits, the underscore, the hyphen, and all that is not
ASCII. -/
def isWordChar (c : Char) : Bool :=
  c.isAlphanum || c == '_' || c == '-' || 128 ≤ c.toNat

/-- The characters of names: those of words, the dollar sign and the colon. -/
def isSymbol (c : Char) : Bool :=
  isWordChar c || c == '$' || c == ':'

def identifier? (cs : List Char) : Option (String × List Char) :=
  let name := cs.takeWhile isSymbol
  if name.isEmpty then none else some (String.ofList name, cs.dropWhile isSymbol)

/-- Drops the given characters, if the text starts with them. -/
def strip? : List Char → List Char → Option (List Char)
  | [], cs => some cs
  | _ :: _, [] => none
  | w :: ws, c :: cs => if w = c then strip? ws cs else none

/-- What was read of a text that leaves the given rest. -/
def consumed (cs rest : List Char) : List Char :=
  cs.take (cs.length - rest.length)

/-! ## Paths -/

/-- Reads a separator of path steps. -/
def separator? : List Char → Option (List Char)
  | '.' :: r => some r
  | '/' :: r => some r
  | _ => none

/-- Reads a key of a path: a name, or any text in brackets. -/
def key? (cs : List Char) : Option (String × List Char) :=
  match cs with
  | '[' :: r =>
    match r.dropWhile fun c => c != ']' with
    | _ :: rest => some (String.ofList (r.takeWhile fun c => c != ']'), rest)
    | [] => none
  | cs => identifier? cs

def keySteps (name : String) : List PathStep :=
  if name = "this" then [] else [.key name]

/-- Reads the steps to enclosing blocks, of which the first number bounds the count. -/
def parents : Nat → List Char → List PathStep × List Char
  | 0, cs => ([], cs)
  | n + 1, cs =>
    match (strip? ['.', '.'] cs).bind separator? with
    | some r => let (steps, r) := parents n r; (.parent :: steps, r)
    | none => ([], cs)

/-- Reads the keys that follow one, each after a separator; the first number bounds the count. -/
def moreKeys : Nat → List Char → List PathStep × List Char
  | 0, cs => ([], cs)
  | n + 1, cs =>
    match (separator? cs).bind key? with
    | some (k, r) => let (steps, r) := moreKeys n r; (keySteps k ++ steps, r)
    | none => ([], cs)

/-- Drops the word for the current data at the start of a path. -/
def skipCurrent (cs : List Char) : List Char :=
  match (strip? ['t', 'h', 'i', 's'] cs).bind separator? with
  | some r => r
  | none => (strip? ['.', '/'] cs).getD cs

/-- Reads the step to the root, with a separator. -/
def rootStep (cs : List Char) : List PathStep × List Char :=
  match (strip? ['@', 'r', 'o', 'o', 't'] cs).bind separator? with
  | some r => ([.root], r)
  | none => ([], cs)

/-- Reads the mark of variables. -/
def localsStep : List Char → List PathStep × List Char
  | '@' :: r => ([.locals], r)
  | cs => ([], cs)

def reference? (cs : List Char) : Option (Reference × List Char) := do
  let (root, r) := rootStep (skipCurrent cs)
  let (marks, r) := localsStep r
  let (up, r) := parents r.length r
  let (k, r) ← key? r
  let (more, r) := moreKeys r.length r
  return (⟨String.ofList (consumed cs r), root ++ marks ++ up ++ keySteps k ++ more⟩, r)

/-! ## Literals -/

/-- Whether a text starts with a character of names. -/
def continuesName : List Char → Bool
  | c :: _ => isSymbol c
  | [] => false

/-- The rest after a word that no character of names follows. -/
def word? (w : List Char) (cs : List Char) : Option (List Char) :=
  match strip? w cs with
  | some r => if continuesName r then none else some r
  | none => none

def skipMinus : List Char → List Char
  | '-' :: r => r
  | r => r

/-- Drops the exponent of a number, if there is a whole one. -/
def skipExponent (cs : List Char) : List Char :=
  match cs with
  | 'E' :: r =>
    let r := skipMinus r
    if (r.takeWhile Char.isDigit).isEmpty then cs else r.dropWhile Char.isDigit
  | cs => cs

def numberRest? (cs : List Char) : Option (List Char) :=
  let r := skipMinus cs
  if (r.takeWhile Char.isDigit).isEmpty then none
  else
    let r := r.dropWhile Char.isDigit
    let r := match r with
      | '.' :: r => r
      | r => r
    let r := skipExponent (r.dropWhile Char.isDigit)
    if continuesName r then none else some r

/-- The rest after the end of a text that the given quote closes. -/
def textRest? (quote : Char) : List Char → Option (List Char)
  | [] => none
  | '\\' :: 'u' :: a :: b :: c :: d :: r =>
    if [a, b, c, d].all fun x => (Json.Read.hexValue? x).isSome then textRest? quote r else none
  | '\\' :: c :: r =>
    if c == quote || ['\\', '/', 'b', 'f', 'n', 'r', 't'].contains c then textRest? quote r
    else none
  | c :: r => if c == quote then some r else if c == '\\' then none else textRest? quote r

def closeRest? (bracket : Char) (cs : List Char) : Option (List Char) :=
  strip? [bracket] (skipBlanks cs)

mutual

/-- The rest after a literal. The first argument bounds the number of steps. -/
def literalRest? : Nat → List Char → Option (List Char)
  | 0, _ => none
  | fuel + 1, cs =>
    match cs with
    | '"' :: r => textRest? '"' r
    | '\'' :: r => textRest? '\'' r
    | '[' :: r =>
      let r := skipBlanks r
      closeRest? ']' (moreItems fuel ((literalRest? fuel r).getD r))
    | '\x7b' :: r =>
      let r := skipBlanks r
      closeRest? '\x7d' (moreMembers fuel ((memberRest? fuel r).getD r))
    | cs =>
      numberRest? cs <|> word? ['n', 'u', 'l', 'l'] cs <|> word? ['t', 'r', 'u', 'e'] cs <|>
        word? ['f', 'a', 'l', 's', 'e'] cs

/-- The rest after literals, each after a comma. -/
def moreItems : Nat → List Char → List Char
  | 0, cs => cs
  | fuel + 1, cs =>
    match skipBlanks cs with
    | ',' :: r =>
      match literalRest? fuel (skipBlanks r) with
      | some r => moreItems fuel r
      | none => cs
    | _ => cs

/-- The rest after a quoted name, a colon and a literal. -/
def memberRest? : Nat → List Char → Option (List Char)
  | 0, _ => none
  | fuel + 1, cs => do
    let r ← match cs with
      | '"' :: r => textRest? '"' r
      | '\'' :: r => textRest? '\'' r
      | _ => none
    let r ← strip? [':'] (skipBlanks r)
    literalRest? fuel (skipBlanks r)

/-- The rest after members, each after a comma. -/
def moreMembers : Nat → List Char → List Char
  | 0, cs => cs
  | fuel + 1, cs =>
    match skipBlanks cs with
    | ',' :: r =>
      match memberRest? fuel (skipBlanks r) with
      | some r => moreMembers fuel r
      | none => cs
    | _ => cs

end

/-- The inside of a text in single quotes as it is written in double quotes. -/
def requote : List Char → List Char
  | [] => []
  | '\\' :: '\'' :: r => '\'' :: requote r
  | '"' :: r => '\\' :: '"' :: requote r
  | c :: r => c :: requote r

/-- A literal as a JSON text: the quotes around a text become double ones. -/
def literalText (cs : List Char) : List Char :=
  match cs with
  | '\'' :: r => '"' :: requote r.dropLast ++ ['"']
  | cs => cs

/-- Reads a literal. One that is no JSON text is malformed. -/
def literal? (cs : List Char) : Option (Expression × List Char) := do
  let rest ← literalRest? (2 * cs.length + 2) cs
  let text := consumed cs rest
  match Json.parseChars? (literalText text) with
  | some j => return (.literal j, rest)
  | none => return (.malformed (String.ofList text), rest)

/-! ## Arguments and calls -/

/-- Whether a text starts with a word that is no argument: `as` or `else`, with no name after it. -/
def startsKeyword (cs : List Char) : Bool :=
  match strip? ['a', 's'] cs <|> strip? ['e', 'l', 's', 'e'] cs with
  | some r => !continuesName (skipBlanks r)
  | none => false

mutual

/-- Reads what may stand as an argument. The first number bounds the number of steps. -/
def expression? : Nat → List Char → Option (Expression × List Char)
  | 0, _ => none
  | fuel + 1, cs =>
    if startsKeyword cs then none
    else
      literal? cs <|> (reference? cs).map (fun p => (.reference p.1, p.2)) <|> enclosed? fuel cs

/-- Reads a call in parentheses; a path alone is a call without arguments. -/
def enclosed? : Nat → List Char → Option (Expression × List Char)
  | 0, _ => none
  | fuel + 1, cs => do
    let r ← strip? ['('] cs
    let r := skipBlanks r
    let (e, r) ← call? fuel r <|> (reference? r).map fun p => (.call p.1.source [], p.2)
    let r ← strip? [')'] (skipBlanks r)
    return (e, r)

/-- Reads a name with at least one argument. -/
def call? : Nat → List Char → Option (Expression × List Char)
  | 0, _ => none
  | fuel + 1, cs => do
    let (name, r) ← identifier? cs
    match arguments fuel r with
    | ([], _) => none
    | (as, r) => return (.call name as, r)

def argument? : Nat → List Char → Option (Argument × List Char)
  | 0, _ => none
  | fuel + 1, cs =>
    named? fuel cs <|> (expression? fuel cs).map fun p => ((none, p.1), p.2)

def named? : Nat → List Char → Option (Argument × List Char)
  | 0, _ => none
  | fuel + 1, cs => do
    let (name, r) ← identifier? cs
    let r ← strip? ['='] (skipBlanks r)
    let (e, r) ← expression? fuel (skipBlanks r)
    return ((some name, e), r)

def arguments : Nat → List Char → List Argument × List Char
  | 0, cs => ([], cs)
  | fuel + 1, cs =>
    match argument? fuel (skipBlanks cs) with
    | some (a, r) => let (as, r) := arguments fuel r; (a :: as, r)
    | none => ([], cs)

end

/-- A number of steps that suffices for every expression in a text. -/
def steps (cs : List Char) : Nat := 6 * cs.length + 6

/-! ## Malformed literals -/

mutual

/-- The first malformed literal of an expression. -/
def malformed? : Expression → Option String
  | malformed text => some text
  | call _ as => malformedArgument? as
  | _ => none

def malformedArgument? : List (Option String × Expression) → Option String
  | [] => none
  | (_, e) :: as => e.malformed? <|> malformedArgument? as

end

end Expression

end ChartTemplate
