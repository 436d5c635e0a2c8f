import ChartTemplate.Json.Basic
import ChartTemplate.Numeric.Text

/-!
# Walking a specification

`walk` goes through a document from the root, containers before what they hold and siblings in order,
and calls a visitor for each entry with the path of its container. A visitor may change the container
that owns the entry; the walk goes on with what is there then. Members that are added to an object
while it is walked are not visited.

Paths extend by `.k` into the member `k` of an object, and by `[i].k` into the `i`th item of the array
that is the member `k`.
-/

namespace ChartTemplate

/-- The name under which an entry was reached. -/
inductive Key where
  /-- The document itself. -/
  | root
  | name (k : String)
  | index (i : Nat)
deriving DecidableEq, Repr

/-- What is done at each entry, with a state that is handed on. -/
structure Visitor (σ : Type) where
  /-- Visits a member of an object; gives the object's members afterwards. -/
  member : σ → String → Members → String → σ × Members
  /-- Visits an item of an array; gives the array's items afterwards. -/
  element : σ → Nat → List Json → String → σ × List Json
  /-- Visits a scalar that is no member. -/
  leaf : σ → Key → Json → String → σ

def Visitor.ofMember {σ : Type} (member : σ → String → Members → String → σ × Members) :
    Visitor σ where
  member
  element := fun s _ js _ => (s, js)
  leaf := fun s _ _ _ => s

mutual

/-- The number of documents in a document, itself included. -/
def Json.size : Json → Nat
  | .arr js => 1 + sizeOfItems js
  | .obj ms => 1 + sizeOfMembers ms
  | _ => 1

/-- The number of documents in a list of documents. -/
def sizeOfItems : List Json → Nat
  | [] => 0
  | j :: js => j.size + sizeOfItems js

/-- The number of documents in the members of an object. -/
def sizeOfMembers : List (String × Json) → Nat
  | [] => 0
  | (_, j) :: ms => j.size + sizeOfMembers ms

end

/-- The name that an index gives to what it holds. -/
def indexName (i : Nat) : String :=
  String.ofList (natChars i)

/-- The path of the `i`th item of an array of the given name. -/
def itemPath (path : String) (i : Nat) (name : String) : String :=
  path ++ "[" ++ indexName i ++ "]." ++ name

def memberPath (path name : String) : String :=
  path ++ "." ++ name

variable {σ : Type}

mutual

/-- Walks a document. The first number bounds the length of a chain of steps; beyond it there is no
result. -/
def walkNode (v : Visitor σ) : Nat → σ → Key → Json → String → Option (σ × Json)
  | 0, _, _, _, _ => none
  | fuel + 1, s, key, j, path =>
    match j with
    | .obj ms => do
      let (s, ms) ← walkMembers v fuel s (Entries.keys ms) ms path
      pure (s, .obj ms)
    | .arr js => do
      let (s, js) ← walkIndices v fuel s 0 js path
      pure (s, .arr js)
    | j => pure (v.leaf s key j path, j)

/-- Walks the members with the given keys that are still there. An array is walked without a visit to
the member that holds it. -/
def walkMembers (v : Visitor σ) : Nat → σ → List String → Members → String → Option (σ × Members)
  | 0, _, _, _, _ => none
  | _ + 1, s, [], ms, _ => pure (s, ms)
  | fuel + 1, s, k :: ks, ms, path =>
    match Entries.get? ms k with
    | none => walkMembers v fuel s ks ms path
    | some (.arr js) => do
      let (s, js) ← walkArray v fuel s k 0 js path
      walkMembers v fuel s ks (Entries.insert ms k (.arr js)) path
    | some _ =>
      let (s, ms) := v.member s k ms path
      match Entries.get? ms k with
      | none => walkMembers v fuel s ks ms path
      | some child =>
        if child.isComposite then do
          let (s, child) ← walkNode v fuel s (.name k) child (memberPath path k)
          walkMembers v fuel s ks (Entries.insert ms k child) path
        else walkMembers v fuel s ks ms path

/-- Walks the items, from the `i`th on, of an array with a name. -/
def walkArray (v : Visitor σ) :
    Nat → σ → String → Nat → List Json → String → Option (σ × List Json)
  | 0, _, _, _, _, _ => none
  | fuel + 1, s, name, i, js, path =>
    if i < js.length then
      let (s, js) := v.element s i js path
      match js[i]? with
      | none => walkArray v fuel s name (i + 1) js path
      | some e => do
        let (s, e) ← walkNode v fuel s (.index i) e (itemPath path i name)
        walkArray v fuel s name (i + 1) (js.set i e) path
    else pure (s, js)

/-- Walks the items, from the `i`th on, of an array without a name: their indices are the names of
what they hold. -/
def walkIndices (v : Visitor σ) : Nat → σ → Nat → List Json → String → Option (σ × List Json)
  | 0, _, _, _, _ => none
  | fuel + 1, s, i, js, path =>
    match js[i]? with
    | none => pure (s, js)
    | some (.arr inner) => do
      let (s, inner) ← walkArray v fuel s (indexName i) 0 inner path
      walkIndices v fuel s (i + 1) (js.set i (.arr inner)) path
    | some _ =>
      let (s, js) := v.element s i js path
      match js[i]? with
      | none => walkIndices v fuel s (i + 1) js path
      | some child =>
        if child.isComposite then do
          let (s, child) ← walkNode v fuel s (.index i) child (memberPath path (indexName i))
          walkIndices v fuel s (i + 1) (js.set i child) path
        else walkIndices v fuel s (i + 1) js path

end

/-- Walks a document with a visitor that adds at most `room` documents to it. A chain of steps meets
no document, and no end of a container, twice. -/
def walk? (v : Visitor σ) (room : Nat) (s : σ) (j : Json) (path : String) : Option (σ × Json) :=
  walkNode v (3 * (j.size + room) + 3) s .root j path

/-- The outcome of a walk. A walk that adds more than `room` documents, and so does not come to its
end, leaves everything as it is. -/
def walk (v : Visitor σ) (room : Nat) (s : σ) (j : Json) (path : String) : σ × Json :=
  (walk? v room s j path).getD (s, j)

end ChartTemplate
