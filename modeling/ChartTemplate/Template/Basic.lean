import ChartTemplate.Helper.Name
import ChartTemplate.Template.Builtin
import ChartTemplate.Template.Layout
import ChartTemplate.Text.Quoted

/-!
# Templates

A template is a list of elements with their positions. `Template.ofText?` builds it from its text, or
tells what is wrong with it:

* text that cannot be read at all, which includes blocks that are not closed in order,
* a literal that is none, or a block closed under a name that is not its own,
* a call of a helper that does not exist, or of a method, named by a literal, that its helper lacks.

The first kind is found before any of the second, and those before any of the third. A call in
parentheses that is a tag by itself is not checked, and neither are tags that insert another template or
call a decorator, with their bodies.
-/

namespace ChartTemplate

inductive Element where
  | text (s : String)
  | comment
  /-- The value of a path, or the result of a call. -/
  | value (escaped : Bool) (e : Expression)
  /-- What a call in parentheses gives. -/
  | computed (escaped : Bool) (e : Expression)
  /-- A block with its body and its alternative. -/
  | block (head : Invocation) (body alternative : List (Option Position × Element))
  /-- Another template, of which an expression gives the name, and a body of its own. -/
  | insertion (name : Expression) (arguments : List Argument)
      (body : Option (List (Option Position × Element)))
  /-- A call of a decorator, which may have a body. -/
  | decoration (head : Invocation) (body : Option (List (Option Position × Element)))

/-- A template: elements with the positions of those that were written down by themselves. -/
abbrev Template := List (Option Position × Element)

/-- The name under which a body is to be closed. -/
structure OpenedName where
  /-- Whether it is that of a block, which calls a helper. -/
  ofBlock : Bool
  name : String
deriving DecidableEq

inductive TemplateError where
  | unreadable
  /-- A literal is no JSON text. -/
  | malformed (text : String)
  /-- A body is closed under another name. -/
  | mismatched (opened : OpenedName) (closed : String) (position : Position)
  | missingHelper (name : String) (position : Position)
  /-- A helper lacks a method. -/
  | unknownMethod (helper : Helper) (method : String) (position : Position)
deriving DecidableEq

namespace TemplateError

/-- Where the error is. A malformed literal is not placed. -/
def position : TemplateError → Position
  | unreadable | malformed _ => .start
  | mismatched _ _ p | missingHelper _ p | unknownMethod _ _ p => p

def message (e : TemplateError) : String :=
  match e with
  | unreadable => "Parse error on " ++ e.position.text
  | malformed text => "Parse error on " ++ e.position.text ++ ": invalid parameter " ++ quote text
  | mismatched opened closed p =>
    "Parse error on " ++ p.text ++ (if opened.ofBlock then ": helper " else ": decorator ") ++
      quote opened.name ++ " was opened, but " ++ quote closed ++ " is closing"
  | missingHelper name p => "Missing helper: \"" ++ name ++ "\" (" ++ p.text ++ ")"
  | unknownMethod helper method p =>
    "Unknown method \"" ++ method ++ "\" for " ++ helper.name ++ " (" ++ p.text ++ ")"

end TemplateError

/-! ## Nesting -/

inductive OpenBody where
  /-- That of a block, and whether it may be divided. -/
  | block (divisible : Bool)
  | insertion
  | decoration

def OpenBody.mayClose (b : OpenBody) (name : String) : Bool :=
  match b with
  | insertion => name.toList.all Tag.isInsertionChar || name.toList.head? == some '\''
  | _ => name.toList.all Expression.isSymbol

/-- Whether bodies are closed in order, and those of blocks are divided once at most by an alternative
without a head, after which there are no others. -/
def nested : List OpenBody → List Piece → Bool
  | bodies, [] => bodies.isEmpty
  | bodies, .tag _ (.opening _) :: ps => nested (.block true :: bodies) ps
  | bodies, .tag _ (.openingInsertion _ _) :: ps => nested (.insertion :: bodies) ps
  | bodies, .tag _ (.openingDecoration _) :: ps => nested (.decoration :: bodies) ps
  | .block true :: bodies, .tag _ (.otherwise head) :: ps => nested (.block head.isSome :: bodies) ps
  | _, .tag _ (.otherwise _) :: _ => false
  | b :: bodies, .tag _ (.closing name) :: ps => b.mayClose name && nested bodies ps
  | [], .tag _ (.closing _) :: _ => false
  | bodies, _ :: ps => nested bodies ps

/-- What a body that is being read belongs to. -/
inductive Opening where
  /-- A block: its complete alternatives with their heads, the last one first, and the head of the
  alternative that is being read, if it has one. -/
  | block (complete : List (Invocation × Template)) (head : Option Invocation)
  | insertion (name : Expression) (arguments : List Argument)
  | decoration (head : Invocation)

/-- A body that is being read. -/
structure OpenElement where
  /-- The elements before it, the last one first. -/
  before : Template
  position : Position
  opened : OpenedName
  opening : Opening

/-- The alternatives before the last one, as blocks one within the other. -/
def chain (last : Template) : List (Invocation × Template) → Template
  | [] => last
  | (head, body) :: rest => chain [(none, .block head body last)] rest

/-- The element whose body, or last alternative, has the given elements. -/
def Opening.close (o : Opening) (last : Template) : Template :=
  match o with
  | block complete (some head) => chain [(none, .block head last [])] complete
  | block complete none => chain last complete
  | insertion name as => [(none, .insertion name as (some last))]
  | decoration head => [(none, .decoration head (some last))]

/-- The name of another template as it was written down. No name closes what has a computed one. -/
def writtenName : Expression → String
  | .literal (.str name) => name
  | _ => "(...)"

/-- Refuses an expression with a malformed literal. -/
def wellFormed (malformed : Option String) : Except TemplateError Unit :=
  match malformed with
  | some text => throw (.malformed text)
  | none => pure ()

/-- Builds elements, the last one first, from pieces; `os` holds the bodies that are being read. -/
def assemble : List OpenElement → Template → List Piece → Except TemplateError Template
  | [], acc, [] => pure acc.reverse
  | _ :: _, _, [] => throw .unreadable
  | os, acc, .text s :: ps => assemble os ((none, .text s) :: acc) ps
  | os, acc, .tag p (.value escaped e) :: ps => do
    wellFormed e.malformed?
    assemble os ((some p, .value escaped e) :: acc) ps
  | os, acc, .tag p (.computed escaped e) :: ps => do
    wellFormed e.malformed?
    assemble os ((some p, .computed escaped e) :: acc) ps
  | os, acc, .tag _ .comment :: ps => assemble os acc ps
  | os, acc, .tag p (.insertion name as) :: ps => do
    wellFormed (name.malformed? <|> Expression.malformedArgument? as)
    assemble os ((some p, .insertion name as none) :: acc) ps
  | os, acc, .tag p (.decoration head) :: ps => do
    wellFormed (Expression.malformedArgument? head.arguments)
    assemble os ((some p, .decoration head none) :: acc) ps
  | os, acc, .tag p (.opening head) :: ps => do
    wellFormed (Expression.malformedArgument? head.arguments)
    assemble (⟨acc, p, ⟨true, head.name⟩, .block [] (some head)⟩ :: os) [] ps
  | os, acc, .tag p (.openingInsertion name as) :: ps => do
    wellFormed (name.malformed? <|> Expression.malformedArgument? as)
    assemble (⟨acc, p, ⟨false, writtenName name⟩, .insertion name as⟩ :: os) [] ps
  | os, acc, .tag p (.openingDecoration head) :: ps => do
    wellFormed (Expression.malformedArgument? head.arguments)
    assemble (⟨acc, p, ⟨false, head.name⟩, .decoration head⟩ :: os) [] ps
  | o :: os, acc, .tag _ (.otherwise next) :: ps => do
    wellFormed (next.bind fun h => Expression.malformedArgument? h.arguments)
    match o.opening with
    | .block complete (some head) =>
      assemble ({ o with opening := .block ((head, acc.reverse) :: complete) next } :: os) [] ps
    | _ => throw .unreadable
  | o :: os, acc, .tag p (.closing name) :: ps =>
    if o.opened.name = name then
      let closed := (o.opening.close acc.reverse).map fun e => (some o.position, e.2)
      assemble os (closed ++ o.before) ps
    else throw (.mismatched o.opened name p)
  | [], _, .tag _ (.otherwise _) :: _ => throw .unreadable
  | [], _, .tag _ (.closing _) :: _ => throw .unreadable

/-! ## Calls -/

def isHelperName (name : String) : Bool :=
  (Helper.ofName? name).isSome || (Builtin.ofName? name).isSome

/-- Refuses a literal name of a method that the helper lacks. -/
def checkMethod (h : Helper) (as : List Argument) (p : Position) : Except TemplateError Unit :=
  match h.methodPosition?.bind fun i => (positional as)[i]? with
  | some (.literal (.str method)) =>
    if h.acceptsMethod method then pure () else throw (.unknownMethod h method p)
  | _ => pure ()

/-- Refuses a call by its name and arguments alone. A name without arguments, other than that of a
block, may stand for a value. -/
def checkCall (block : Bool) (name : String) (as : List Argument) (p : Position) :
    Except TemplateError Unit := do
  if (block || !as.isEmpty) && !isHelperName name then throw (.missingHelper name p)
  match Helper.ofName? name with
  | some h => checkMethod h as p
  | none => pure ()

mutual

/-- Refuses an expression with a call that has to be refused. -/
def checkExpression (p : Position) : Expression → Except TemplateError Unit
  | .call name as => do
    checkCall false name as p
    checkPositional p as
    checkNamed p as
  | _ => pure ()

/-- Refuses arguments without names with a call that has to be refused. -/
def checkPositional (p : Position) : List (Option String × Expression) → Except TemplateError Unit
  | [] => pure ()
  | (none, e) :: as => do
    checkExpression p e
    checkPositional p as
  | (some _, _) :: as => checkPositional p as

/-- Refuses arguments with names with a call that has to be refused. Only the last one of a name
counts. -/
def checkNamed (p : Position) : List (Option String × Expression) → Except TemplateError Unit
  | [] => pure ()
  | (none, _) :: as => checkNamed p as
  | (some k, e) :: as => do
    if as.any fun a => a.1 == some k then checkNamed p as
    else
      checkExpression p e
      checkNamed p as

end

def placeOf (p : Option Position) : Position :=
  p.getD .unplaced

mutual

/-- Refuses an element with a call that has to be refused. -/
def checkElement (p : Position) : Element → Except TemplateError Unit
  | .value _ e => checkExpression p e
  | .block head body alternative => do
    checkCall true head.name head.arguments p
    checkPositional p head.arguments
    checkNamed p head.arguments
    checkElements body
    checkElements alternative
  | _ => pure ()

/-- Refuses elements with a call that has to be refused. -/
def checkElements : List (Option Position × Element) → Except TemplateError Unit
  | [] => pure ()
  | (p, e) :: es => do
    checkElement (placeOf p) e
    checkElements es

end

namespace Template

def ofText? (text : String) : Except TemplateError Template := do
  match Segment.ofTemplate? text.toList with
  | none => throw .unreadable
  | some ss =>
    let ps := pieces ss
    if !nested [] ps then throw .unreadable
    let t ← assemble [] [] ps
    checkElements t
    return t

end Template

end ChartTemplate
