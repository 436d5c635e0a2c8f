import ChartTemplate.Entries
import ChartTemplate.Numeric.Parts

/-!
# JSON documents

`Json` keeps the members of an object in the order in which they were written. Integers of at most
64 bits are kept exact, and every other number is a binary64 float.

An object is a list of members with distinct keys.
-/

namespace ChartTemplate

inductive JsonNumber where
  /-- An integer of at most 64 bits, signed or unsigned. -/
  | int (n : Int)
  /-- Any other number. -/
  | float (x : Float)
deriving DecidableEq

inductive Json where
  | null
  | bool (b : Bool)
  | num (n : JsonNumber)
  | str (s : String)
  | arr (items : List Json)
  /-- Named documents, in order. -/
  | obj (members : List (String × Json))
deriving Inhabited

abbrev Members := Entries Json

def JsonNumber.toFloat : JsonNumber → Float
  | .int n => Float.ofInt n
  | .float x => x

namespace Json

/-- The member `key` of an object. -/
def get? (j : Json) (key : String) : Option Json :=
  match j with
  | obj ms => Entries.get? ms key
  | _ => none

def items? : Json → Option (List Json)
  | arr js => some js
  | _ => none

def members? : Json → Option Members
  | obj ms => some ms
  | _ => none

def text? : Json → Option String
  | str s => some s
  | _ => none

/-- Whether the document is an array or an object. -/
def isComposite : Json → Bool
  | arr _ | obj _ => true
  | _ => false

end Json

end ChartTemplate
