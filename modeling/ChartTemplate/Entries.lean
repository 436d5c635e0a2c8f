/-!
# Named entries

`Entries α` is a list of values with names, in the order in which the names first came. The
operations keep the names distinct.
-/

namespace ChartTemplate

/-- Values with names, in order. -/
abbrev Entries (α : Type) := List (String × α)

namespace Entries

variable {α : Type}

def get? (es : Entries α) (key : String) : Option α :=
  (es.find? fun e => e.1 == key).map Prod.snd

def contains (es : Entries α) (key : String) : Bool :=
  es.any fun e => e.1 == key

/-- Gives the entry `key` the value `v`: in its place if it is there, else at the end. -/
def insert (es : Entries α) (key : String) (v : α) : Entries α :=
  match es with
  | [] => [(key, v)]
  | e :: es => if e.1 == key then (key, v) :: es else e :: insert es key v

/-- Removes the entry `key`, keeping the order of the rest. -/
def erase (es : Entries α) (key : String) : Entries α :=
  es.eraseP fun e => e.1 == key

/-- Applies `f` to the value of the entry `key`. -/
def modify (es : Entries α) (key : String) (f : α → α) : Entries α :=
  es.map fun e => if e.1 == key then (e.1, f e.2) else e

def keys (es : Entries α) : List String :=
  es.map Prod.fst

/-- Entries in which a later value of a repeated name replaces the earlier one in its place. -/
def ofList (es : List (String × α)) : Entries α :=
  es.foldl (fun acc e => acc.insert e.1 e.2) []

end Entries

end ChartTemplate
