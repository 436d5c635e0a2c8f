import ChartTemplate.Template.Basic
import ChartTemplate.Template.CallTree
import ChartTemplate.Template.Scope
import ChartTemplate.Text.Escape
import ChartTemplate.Value.Document

/-!
# Rendering

`Template.calls` writes a template about a document: it is the tree of the calls of helpers that are made on
the way to the text or to a failure, and `Template.render` makes them. What helpers did before a failure
stays done. A failure carries the position of the innermost element that has one.

A helper goes before a member of the same name, and a registered helper before one that every template
has. An absent value is written as nothing.

A tag may insert the template itself, under the name that it is registered under, the body of the tag by
which it was inserted, or a template that a decorator has defined. Templates that insert themselves without
end fill the stack: `RenderScene.room` says how many can be written within one another. It counts templates,
not bytes.
-/

namespace ChartTemplate

/-- Why a rendering fails. -/
inductive RenderError where
  /-- A path leads nowhere. -/
  | path (e : PathError)
  /-- There is no helper of a name. -/
  | helperNotFound (name : String)
  /-- A helper lacks an argument. -/
  | missingArgument (b : Builtin) (index : Nat)
  /-- There is no template of a name to be inserted. -/
  | insertionNotFound (name : String)
  /-- There is no template of a name to be rendered. -/
  | templateNotFound (name : String)
  | decoratorNotFound (name : String)
  /-- A template is defined without a name. -/
  | unnamedDefinition
  /-- A template is defined under what is no text. -/
  | wrongDefinitionName
  /-- A template is defined without a body. -/
  | emptyDefinition
  | helper (e : HelperError)
deriving DecidableEq

def RenderError.message : RenderError → String
  | path e => e.message
  | helperNotFound name => "Helper not found " ++ name
  | missingArgument b index =>
    "Helper/Decorator " ++ b.title ++ " param " ++ b.argumentText index ++
      " required but not found"
  | insertionNotFound name => "Partial not found " ++ name
  | templateNotFound name => "Template not found " ++ name
  | decoratorNotFound name => "Decorator not found " ++ name
  | unnamedDefinition => "Helper/Decorator inline param at index 0 required but not found"
  | wrongDefinitionName => "Invalid param type, String expected"
  | emptyDefinition => "Block content required"
  | helper e => e.message

structure RenderFailure where
  /-- What went wrong. -/
  error : RenderError
  position : Option Position
deriving DecidableEq

/-- A step of a rendering: the calls that it makes until it fails or has a result. It may define templates
under names. -/
abbrev Rendering (α : Type) := StateT (Entries Template) (ExceptT RenderFailure CallTree) α

/-- What a rendering works with. -/
structure RenderScene where
  /-- The table that helpers see. -/
  table : Table
  /-- The document at the root. -/
  root : Json
  /-- The time zone of local clocks. -/
  zone : TimeZone
  /-- How many templates can be inserted within one another before the stack is full. -/
  room : Nat

/-- A helper by its name. -/
inductive Callee where
  | helper (h : Helper)
  /-- A helper that every template has. -/
  | builtin (b : Builtin)

def Callee.ofName? (name : String) : Option Callee :=
  match Helper.ofName? name with
  | some h => some (.helper h)
  | none => (Builtin.ofName? name).map .builtin

/-- The arguments of a call: a missing one is absent. -/
structure CallArguments where
  /-- The arguments without names. -/
  positional : List (Option Json)
  /-- The arguments with names. -/
  named : List (String × Option Json)

namespace Rendering

variable {α : Type}

/-- The calls of a step, and what they lead to with the templates that are defined then. -/
def calls (x : Rendering α) (defined : Entries Template) :
    CallTree (Except RenderFailure (α × Entries Template)) :=
  (x.run defined).run

def fail (e : RenderError) : Rendering α :=
  throw ⟨e, none⟩

/-- Adds a position to a failure that has none. -/
def placing (p : Option Position) (r : Rendering α) : Rendering α :=
  tryCatch r fun f => throw { f with position := f.position <|> p }

def outOfStack : Rendering α :=
  fun _ => ExceptT.mk .outOfStack

def resolve (root : Json) (scopes : List Scope) (r : Reference) : Rendering (Option Json) :=
  match Scope.resolve root scopes r with
  | .ok j => pure j
  | .error e => fail (.path e)

/-- Calls a registered helper. A missing result is absent. -/
def callHelper (h : Helper) (args : List (Option Json)) : Rendering (Option Json) := do
  let values := args.map fun a => (a.map Value.ofJson).getD .undefined
  match ← liftM (CallTree.ask h values) with
  | .error e => fail (.helper e)
  | .ok .undefined => return none
  | .ok v => return some v.toJson

/-- Refuses too few arguments. -/
def checkArity (b : Builtin) (args : CallArguments) : Rendering Unit :=
  if args.positional.length < b.arity then fail (.missingArgument b args.positional.length)
  else pure ()

def callValue (name : String) (args : CallArguments) : Rendering (Option Json) := do
  match Callee.ofName? name with
  | none => fail (.helperNotFound name)
  | some (.helper h) => callHelper h args.positional
  | some (.builtin b) =>
    checkArity b args
    return some (b.eval (args.positional.map fun a => a.getD .null))

mutual

/-- The value of an expression; none if it is absent. -/
def evaluate (root : Json) (scopes : List Scope) : Expression → Rendering (Option Json)
  | .reference r => resolve root scopes r
  | .literal j => pure (some j)
  | .malformed _ => pure none
  | .call name as => do
    let positional ← evaluatePositional root scopes as
    let named ← evaluateNamed root scopes as
    callValue name ⟨positional, named⟩

/-- The values of the arguments without names. -/
def evaluatePositional (root : Json) (scopes : List Scope) :
    List (Option String × Expression) → Rendering (List (Option Json))
  | [] => pure []
  | (none, e) :: as => do
    let j ← evaluate root scopes e
    let js ← evaluatePositional root scopes as
    return j :: js
  | (some _, _) :: as => evaluatePositional root scopes as

/-- The values of the arguments with names, of which the last one of a name counts. -/
def evaluateNamed (root : Json) (scopes : List Scope) :
    List (Option String × Expression) → Rendering (List (String × Option Json))
  | [] => pure []
  | (none, _) :: as => evaluateNamed root scopes as
  | (some k, e) :: as => do
    if as.any fun a => a.1 == some k then evaluateNamed root scopes as
    else
      let j ← evaluate root scopes e
      let js ← evaluateNamed root scopes as
      return (k, j) :: js

end

def evaluateArguments (root : Json) (scopes : List Scope) (as : List Argument) :
    Rendering CallArguments := do
  let positional ← evaluatePositional root scopes as
  let named ← evaluateNamed root scopes as
  return ⟨positional, named⟩

/-- A value as it is written, escaped on demand. -/
def written (escaped : Bool) (j : Option Json) : String :=
  let s := (j.map Json.display).getD ""
  if escaped then escapeMarkup s else s

/-- Writes the result of a call without a body. -/
def writeCall (root : Json) (scopes : List Scope) (escaped : Bool) (name : String)
    (as : List Argument) : Rendering String := do
  let args ← evaluateArguments root scopes as
  let j ← callValue name args
  return written escaped j

/-- Writes the value of an expression. A path that is the name of a helper is a call of it. -/
def writeValue (root : Json) (scopes : List Scope) (escaped : Bool) (e : Expression) :
    Rendering String := do
  match e with
  | .reference r =>
    if isHelperName r.source then writeCall root scopes escaped r.source []
    else return written escaped (← resolve root scopes r)
  | .call name as => writeCall root scopes escaped name as
  | _ => return ""

/-- Writes what a call in parentheses gives. It is evaluated to learn whether it names a helper, and
then again. -/
def writeComputed (root : Json) (scopes : List Scope) (escaped : Bool) (e : Expression) :
    Rendering String := do
  let first ← evaluate root scopes e
  let again ← evaluate root scopes e
  if isHelperName (written false first) then writeCall root scopes escaped (written false again) []
  else return written escaped again

/-! ## Blocks -/

/-- The names of a block bound to an item and its key. -/
def bindings (binders : List String) (item key : Json) : Members :=
  match binders with
  | [a] => [(a, item)]
  | [a, b] => Entries.ofList [(a, item), (b, key)]
  | _ => []

/-- The variables that a block sets for the `i`th of `n` items. -/
def itemVariables (i n : Nat) : Members :=
  [("index", .num (.int i)), ("first", .bool (i == 0)), ("last", .bool (i + 1 == n))]

def itemScopes (binders : List String) (js : List Json) : List Scope :=
  js.mapIdx fun i j =>
    ⟨j, itemVariables i js.length, bindings binders j (.num (.int i))⟩

def memberScopes (binders : List String) (ms : Members) : List Scope :=
  ms.mapIdx fun i m =>
    ⟨m.2, ("key", .str m.1) :: itemVariables i ms.length, bindings binders m.2 (.str m.1)⟩

/-- The scopes in which the body of a block is written for each part of a document. -/
def partScopes (binders : List String) (j : Json) : List Scope :=
  match j with
  | .arr js => itemScopes binders js
  | .obj ms => memberScopes binders ms
  | _ => []

def inTurn : List (Rendering String) → Rendering String
  | [] => pure ""
  | r :: rs => do
    let s ← r
    let t ← inTurn rs
    return s ++ t

/-- Writes a block with a given helper, arguments, and ways to write its body and its alternative. -/
def writeBlock (scopes : List Scope) (b : Builtin) (binders : List String) (args : CallArguments)
    (body alternative : List Scope → Rendering String) : Rendering String := do
  checkArity b args
  let first := ((args.positional.head?.join).getD .null)
  match b with
  | .condition expected =>
    let zero := match Entries.get? args.named "includeZero" with
      | some (some (.bool b)) => b
      | _ => false
    if first.isTruthy zero == expected then body scopes else alternative scopes
  | .each =>
    match partScopes binders first with
    | [] => alternative scopes
    | parts => inTurn (parts.map fun s => body (s :: scopes))
  | .within =>
    if first.isTruthy false then
      let names := match binders with
        | [a] => [(a, first)]
        | _ => []
      body (⟨first, [], names⟩ :: scopes)
    else alternative scopes
  | .raw => body scopes
  | b =>
    match b.eval (args.positional.map fun a => a.getD .null) with
    | .bool true => body scopes
    | .bool false => alternative scopes
    | j => return written true (some j)

/-! ## Insertions -/

/-- What can be inserted besides the templates that were defined. -/
structure Insertions where
  /-- The template that is rendered. -/
  registered : Template
  /-- The bodies of the tags around, the innermost one first, that insert what is being written. -/
  bodies : List Template

def registeredName : String := "chart"

/-- The name of the body of the tag that inserts what is being written. -/
def bodyName : String := "@partial-block"

namespace Insertions

/-- The template of a name. A tag without one inserts its own body. -/
def find? (i : Insertions) (defined : Entries Template) (name : String) (body : Option Template) :
    Option Template :=
  (if name = bodyName then i.bodies.head? else Entries.get? defined name) <|>
    (if name = registeredName then some i.registered else none) <|> body

def within (i : Insertions) (name : String) (body : Option Template) : Insertions :=
  { i with bodies := body.toList ++ if name = bodyName then i.bodies.tail else i.bodies }

end Insertions

/-- A document as an object: the items of an array and the characters of a text by their positions. -/
def asMembers : Json → Members
  | .obj ms => ms
  | .arr js => js.mapIdx fun i j => (toString i, j)
  | .str s => s.toList.mapIdx fun i c => (toString i, .str c.toString)
  | _ => []

/-- The document that an inserted template is about: the first argument, or what the tag is about, with
the named arguments as members. -/
def insertedData (scopes : List Scope) (args : CallArguments) : Json :=
  let base := match args.positional.head? with
    | some j => j.getD .null
    | none => Scope.innermost scopes
  if args.named.isEmpty then base
  else .obj (args.named.foldl (fun ms a => Entries.insert ms a.1 (a.2.getD .null)) (asMembers base))

/-- Calls a decorator. The only one defines its body as a template. -/
def decorate (root : Json) (scopes : List Scope) (head : Invocation) (body : Option Template) :
    Rendering Unit := do
  let args ← evaluateArguments root scopes head.arguments
  if head.name ≠ "inline" then fail (.decoratorNotFound head.name)
  match args.positional.head? with
  | none => fail .unnamedDefinition
  | some (some (.str name)) =>
    match body with
    | some t => modify fun defined => Entries.insert defined name t
    | none => fail .emptyDefinition
  | some _ => fail .wrongDefinitionName

/-- Calls the decorators among the elements of a body. -/
def defineAll (root : Json) (scopes : List Scope) : Template → Rendering Unit
  | [] => pure ()
  | (p, .decoration head body) :: es => do
    placing p (decorate root scopes head body)
    defineAll root scopes es
  | _ :: es => defineAll root scopes es

/-- Writes the template of a name, in the given way. -/
def insert (write : Insertions → List Scope → Template → Rendering String) (root : Json)
    (i : Insertions) (scopes : List Scope) (name : String) (args : CallArguments)
    (body : Option Template) : Rendering String := do
  defineAll root scopes (body.getD [])
  match i.find? (← get) name body with
  | some t => write (i.within name body) [.ofData (insertedData scopes args)] t
  | none => fail (.insertionNotFound name)

/-! ## Elements -/

/-- A way to write the template of a name, with arguments and a body. -/
abbrev Inserter := List Scope → String → CallArguments → Option Template → Rendering String

mutual

def writeElement (root : Json) (insert : Inserter) (scopes : List Scope) : Element → Rendering String
  | .text s => pure s
  | .comment => pure ""
  | .value escaped e => writeValue root scopes escaped e
  | .computed escaped e => writeComputed root scopes escaped e
  | .block head body alternative => do
    let args ← evaluateArguments root scopes head.arguments
    match Callee.ofName? head.name with
    | none => fail (.helperNotFound head.name)
    | some (.helper h) => return written true (← callHelper h args.positional)
    | some (.builtin b) =>
      writeBlock scopes b head.binders args (fun scopes => writeElements root insert scopes body)
        fun scopes => writeElements root insert scopes alternative
  | .insertion name as body => do
    let j ← evaluate root scopes name
    let args ← evaluateArguments root scopes as
    insert scopes (written false j) args body
  | .decoration head body => do
    decorate root scopes head body
    return ""

def writeElements (root : Json) (insert : Inserter) (scopes : List Scope) :
    List (Option Position × Element) → Rendering String
  | [] => pure ""
  | (p, e) :: es => do
    let s ← placing p (writeElement root insert scopes e)
    let t ← writeElements root insert scopes es
    return s ++ t

end

/-- Writes an inserted template, if so many can be written within one another. -/
def writeWithin (root : Json) : Nat → Insertions → List Scope → Template → Rendering String
  | 0, _, _, _ => outOfStack
  | room + 1, i, scopes, t => writeElements root (insert (writeWithin root room) root i) scopes t

end Rendering

namespace Template

/-- The calls that write a template about a document, and its text. -/
def calls (t : Template) (root : Json) (room : Nat) : CallTree (Except RenderFailure String) :=
  let insert := Rendering.insert (Rendering.writeWithin root room) root ⟨t, []⟩
  ((Rendering.writeElements root insert [.ofData root] t).run' []).run

/-- Writes a template. The result comes with the state that helpers leave. -/
def render {σ : Type} [HostServices σ] (t : Template) (scene : RenderScene) (s : HelperState σ) :
    Except Fault (Except RenderFailure String × HelperState σ) :=
  (t.calls scene.root scene.room).run scene.table scene.zone s

end Template

end ChartTemplate
