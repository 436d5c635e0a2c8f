import ChartTemplate.Json.Skip

/-!
# Render options

The options of a rendering, and their form as JSON text: an object whose members may be lacking and
among which others are passed over unread, or an array of the options in their order, of which the last ones
may be lacking. A repeated option is refused.
-/

namespace ChartTemplate

structure RenderOptions where
  width : Nat
  height : Nat
  /-- The colors that are handed out; none stands for the default ones. -/
  palette : List String
  /-- The names that are added to the data. -/
  globals : Members

namespace RenderOptions

/-- The options that hold when nothing is given. -/
def standard : RenderOptions := ⟨800, 600, [], []⟩

/-- The first length that is too great. -/
def lengthBound : Int := 4294967296

/-- A length: an integer of 32 bits without sign. -/
def length? : Json → Option Nat
  | .num (.int n) => if 0 ≤ n && n < lengthBound then some n.toNat else none
  | _ => none

def colors? : Json → Option (List String)
  | .arr js => js.mapM Json.text?
  | _ => none

/-- Gives the named option a value. Other names are passed over. -/
def set? (o : RenderOptions) (name : String) (j : Json) : Option RenderOptions :=
  match name with
  | "width" => (length? j).map fun n => { o with width := n }
  | "height" => (length? j).map fun n => { o with height := n }
  | "palette" => (colors? j).map fun cs => { o with palette := cs }
  | "variables" => j.members?.map fun ms => { o with globals := ms }
  | _ => some o

def names : List String := ["width", "height", "palette", "variables"]

/-! ## Reading -/

open Json.Read (skipBlanks)

/-- Reads the value of the named option and sets it. The value of another name is passed over. -/
def readOption? (o : RenderOptions) (name : String) (cs : List Char) :
    Option (RenderOptions × List Char) := do
  let steps := 2 * cs.length + 2
  if names.contains name then
    let (j, r) ← Json.Read.value? steps (Json.maxDepth - 1) cs
    let o ← o.set? name j
    return (o, r)
  else
    let r ← Json.Read.skipValue? steps cs
    return (o, r)

/-- Reads options in the given order up to a closing bracket. -/
def readItems? (o : RenderOptions) : List String → List Char → Option (RenderOptions × List Char)
  | [], _ => none
  | n :: ns, cs => do
    let (o, r) ← o.readOption? n cs
    match skipBlanks r with
    | ',' :: r => readItems? o ns r
    | ']' :: r => return (o, r)
    | _ => none

/-- Reads named options up to a closing brace. The first number bounds their count; the list holds
the ones that were set. -/
def readMembers? (o : RenderOptions) :
    Nat → List String → List Char → Option (RenderOptions × List Char)
  | 0, _, _ => none
  | fuel + 1, seen, cs => do
    let (name, r) ← match skipBlanks cs with
      | '"' :: r => Json.Read.textBody? (r.length + 1) r
      | _ => none
    let name := String.ofList name
    if names.contains name && seen.contains name then none
    match skipBlanks r with
    | ':' :: r =>
      let (o, r) ← o.readOption? name r
      match skipBlanks r with
      | ',' :: r => readMembers? o fuel (name :: seen) r
      | '\x7d' :: r => return (o, r)
      | _ => none
    | _ => none

def read? (cs : List Char) : Option (RenderOptions × List Char) :=
  match skipBlanks cs with
  | '[' :: r =>
    match skipBlanks r with
    | ']' :: r => some (standard, r)
    | r => standard.readItems? names r
  | '\x7b' :: r =>
    match skipBlanks r with
    | '\x7d' :: r => some (standard, r)
    | r => standard.readMembers? (r.length + 1) [] r
  | _ => none

def ofText? (text : String) : Option RenderOptions := do
  let (o, r) ← read? text.toList
  if (skipBlanks r).isEmpty then some o else none

end RenderOptions

end ChartTemplate
