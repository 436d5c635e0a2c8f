import ChartTemplate.Template.Expression
import ChartTemplate.Value.Basic

/-!
# Scopes

A block may look at a part of the data, set variables, and bind names of its own. `resolve` follows a
path from the innermost block outwards.
-/

namespace ChartTemplate

/-- What is in scope within a block. -/
structure Scope where
  /-- The data that it looks at. -/
  data : Json
  /-- The variables that it sets. -/
  locals : Members
  /-- The names that it binds. -/
  bindings : Members

/-- Why a path leads nowhere. -/
inductive PathError where
  /-- An item of an array was asked for by what is no position. -/
  | badIndex (key : String)
deriving DecidableEq

def PathError.message : PathError → String
  | badIndex key => "Cannot access array/vector with string index, " ++ key

namespace Scope

def ofData (j : Json) : Scope := ⟨j, [], []⟩

/-- The first position that is too great for every array. -/
def indexBound : Nat := powTwo 64

def index? (key : String) : Option Nat :=
  (Value.readIndex? key).filter fun i => i < indexBound

/-- The document under a key; only arrays refuse one. -/
def step (j : Json) (key : String) : Except PathError (Option Json) :=
  match j with
  | .arr js =>
    match index? key with
    | some i => pure js[i]?
    | none => throw (.badIndex key)
  | j => pure (j.get? key)

/-- The document at the end of keys; none if it is absent. -/
def follow : Json → List String → Except PathError (Option Json)
  | j, [] => pure (some j)
  | j, k :: ks => do
    match ← step j k with
    | some j => follow j ks
    | none => pure none

def keys (steps : List PathStep) : List String :=
  steps.filterMap fun
    | .key k => some k
    | _ => none

/-- How many steps to enclosing blocks come first. -/
def depth (steps : List PathStep) : Nat :=
  (steps.takeWhile fun s => s = .parent).length

/-- The variable that steps name, with the number of blocks that are passed over. Keys after the first
do not count. -/
def namedVariable : List PathStep → Option (Nat × String)
  | .locals :: steps =>
    match steps.drop (depth steps) with
    | .key k :: _ => some (depth steps, k)
    | _ => none
  | _ => none

/-- The value of a variable in the innermost scope that sets variables at all. -/
def lookup? (scopes : List Scope) (name : String) : Option Json :=
  (scopes.find? fun s => !s.locals.isEmpty).bind fun s => Entries.get? s.locals name

/-- What a name is bound to in the innermost scope that binds it. -/
def bound? (scopes : List Scope) (name : String) : Option Json :=
  scopes.findSome? fun s => Entries.get? s.bindings name

def innermost (scopes : List Scope) : Json :=
  (scopes.head?.map Scope.data).getD .null

/-- The data that a path starts from, and its steps from there. A name that is bound goes before the
data, and where there are not enough enclosing blocks the innermost one counts. -/
def origin (root : Json) (scopes : List Scope) (steps : List PathStep) : Json × List PathStep :=
  let n := depth steps
  match steps.drop n with
  | .key k :: rest =>
    match bound? scopes k with
    | some j => (j, rest)
    | none => (((scopes[n]?).map Scope.data).getD (innermost scopes), steps)
  | .root :: rest => if n = 0 then (root, rest) else (innermost scopes, steps)
  | _ => (((scopes[n]?).map Scope.data).getD (innermost scopes), steps)

/-- The document that a path leads to; none if it is absent. -/
def resolve (root : Json) (scopes : List Scope) (r : Reference) : Except PathError (Option Json) :=
  match namedVariable r.steps with
  | some (n, name) => pure (lookup? (scopes.drop n) name)
  | none =>
    let (j, steps) := origin root scopes r.steps
    follow j (keys steps)

end Scope

end ChartTemplate
