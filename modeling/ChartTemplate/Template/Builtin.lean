import ChartTemplate.Json.Parser
import ChartTemplate.Json.Printer
import ChartTemplate.Value.Basic

/-!
# Helpers that every template has

Some of them write their bodies or not, depending on a document; the others compare documents,
combine their truth or measure them. A comparison or combination with a body decides whether that is
written. What is absent counts as null.
-/

namespace ChartTemplate

/-- A helper that every template has. -/
inductive Builtin where
  /-- Writes the body if the document is true, or false for `unless`, else the alternative. -/
  | condition (expected : Bool)
  | each
  /-- Writes the body about another document. -/
  | within
  /-- Writes the body. -/
  | raw
  /-- Whether two documents are equal. -/
  | equal (expected : Bool)
  /-- Whether two documents are ordered in one of the given ways. -/
  | ordered (orders : List Ordering)
  /-- Whether all documents are true. -/
  | all
  /-- Whether some document is true. -/
  | any
  /-- Whether a document is false. -/
  | negation
  /-- How many parts a document has. -/
  | length
deriving DecidableEq

namespace Json

/-- Whether a number is neither zero nor subnormal. -/
def isNormal (x : Float) : Bool :=
  x.isFinite && powTwo 52 ≤ (FloatParts.ofFloat x).mant

/-- Whether a document counts as true: all but false, null, zero and what is empty. On demand, zero
counts as true. -/
def isTruthy (zero : Bool) : Json → Bool
  | null => false
  | bool b => b
  | num n => zero || isNormal n.toFloat
  | str s => !s.isEmpty
  | arr js => !js.isEmpty
  | obj ms => !ms.isEmpty

/-- Whether two numbers are of one kind and equal. -/
def sameNumber : JsonNumber → JsonNumber → Bool
  | .int m, .int n => m == n
  | .float x, .float y => x == y
  | _, _ => false

mutual

/-- Whether two documents are equal. The order of members does not count. -/
def same : Json → Json → Bool
  | null, null => true
  | bool a, bool b => a == b
  | num m, num n => sameNumber m n
  | str s, str t => s == t
  | arr js, arr ks => sameItems js ks
  | obj ms, obj ns => ms.length == ns.length && sameMembers ms ns
  | _, _ => false

/-- Whether two lists of documents are equal. -/
def sameItems : List Json → List Json → Bool
  | [], [] => true
  | j :: js, k :: ks => same j k && sameItems js ks
  | _, _ => false

/-- Whether each member is also among the other members, with an equal document. -/
def sameMembers : List (String × Json) → Members → Bool
  | [], _ => true
  | (k, j) :: ms, ns =>
    (match Entries.get? ns k with
      | some other => same j other
      | none => false) && sameMembers ms ns

end

/-- The order of an integer and a finite float. -/
def compareIntFloat (n : Int) (x : Float) : Ordering :=
  let w := truncInt x
  if n < w then .lt else if w < n then .gt
  else if fract x == 0 then .eq else if fract x < 0 then .gt else .lt

def compareNumbers (m n : JsonNumber) : Option Ordering :=
  match m, n with
  | .int a, .int b => some (Ord.compare a b)
  | .int a, .float y => some (compareIntFloat a y)
  | .float x, .int b => some (compareIntFloat b x).swap
  | .float x, .float y => ChartTemplate.compareNumbers x y

def compareNumberText (n : JsonNumber) (s : String) : Option Ordering :=
  (readNumber? s).bind fun m => compareNumbers n m

/-- The order of two documents: of numbers, texts, truth values, or a number and a text. -/
def compare (j k : Json) : Option Ordering :=
  match j, k with
  | num m, num n => compareNumbers m n
  | str s, str t => some (compareTexts s t)
  | bool a, bool b => some (Ord.compare a b)
  | num m, str t => compareNumberText m t
  | str s, num n => (compareNumberText n s).map Ordering.swap
  | _, _ => none

/-- How many parts a document has: items, members, or bytes of a text. -/
def partCount : Json → Nat
  | arr js => js.length
  | obj ms => ms.length
  | str s => s.utf8ByteSize
  | _ => 0

mutual

/-- A document as it is written into text. -/
def display : Json → String
  | null => ""
  | bool true => "true"
  | bool false => "false"
  | num n => String.ofList (numberChars n)
  | str s => s
  | arr js => "[" ++ String.intercalate ", " (displayItems js) ++ "]"
  | obj _ => "[object]"

/-- The items of an array as they are written into text. -/
def displayItems : List Json → List String
  | [] => []
  | j :: js => display j :: displayItems js

end

end Json

namespace Builtin

def names : List (Builtin × String) :=
  [(condition true, "if"), (condition false, "unless"), (each, "each"), (within, "with"),
    (raw, "raw"), (equal true, "eq"), (equal false, "ne"), (ordered [.gt], "gt"),
    (ordered [.gt, .eq], "gte"), (ordered [.lt], "lt"), (ordered [.lt, .eq], "lte"), (all, "and"),
    (any, "or"), (negation, "not"), (length, "len")]

def ofName? (name : String) : Option Builtin :=
  (names.find? fun p => p.2 == name).map Prod.fst

/-- How many arguments a helper needs. -/
def arity : Builtin → Nat
  | raw | all | any => 0
  | equal _ | ordered _ => 2
  | _ => 1

/-- The name that is given when an argument is lacking. -/
def title (b : Builtin) : String :=
  match b with
  | condition _ => "if"
  | b => ((names.find? fun p => p.1 = b).map Prod.snd).getD ""

/-- How a missing argument is told of. The only one of `len` has a name. -/
def argumentText (b : Builtin) (index : Nat) : String :=
  match b with
  | length => "with name x"
  | _ => s!"at index {index}"

/-- What a helper gives for its arguments. One that writes bodies gives an empty text. -/
def eval (b : Builtin) (args : List Json) : Json :=
  let first := args.getD 0 .null
  let second := args.getD 1 .null
  match b with
  | equal expected => .bool (first.same second == expected)
  | ordered orders => .bool ((first.compare second).any orders.contains)
  | all => .bool (args.all (Json.isTruthy false))
  | any => .bool (args.any (Json.isTruthy false))
  | negation => .bool (!first.isTruthy false)
  | length => .num (.int first.partCount)
  | _ => .str ""

end Builtin

end ChartTemplate
