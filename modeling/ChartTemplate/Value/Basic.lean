import ChartTemplate.Entries
import ChartTemplate.Numeric.Rounding
import ChartTemplate.Time.Iso

/-!
# Values

`Value` is what helpers take and give. Beside the kinds of a JSON document it knows a missing value
and instants. The coercions to numbers, texts and truth values are total: a value without a number
is NaN.
-/

namespace ChartTemplate

/-- A helper's argument or result. -/
inductive Value where
  /-- No value at all. -/
  | undefined
  | null
  | bool (b : Bool)
  | number (x : Float)
  | text (s : String)
  | date (t : Instant)
  | array (items : List Value)
  /-- Named values, in order, with distinct names. -/
  | object (members : List (String × Value))
deriving Inhabited

/-- Whether the first text comes before the second in the order of code points, equals it, or comes
after it. -/
def compareTexts (s t : String) : Ordering :=
  if s < t then .lt else if s == t then .eq else .gt

/-- The order of two numbers; NaN has none. -/
def compareNumbers (x y : Float) : Option Ordering :=
  if x < y then some .lt else if x == y then some .eq else if y < x then some .gt else none

namespace Value

def typeName : Value → String
  | undefined => "undefined"
  | null => "null"
  | bool _ => "boolean"
  | number _ => "number"
  | text _ => "string"
  | date _ => "date"
  | array _ => "array"
  | object _ => "object"

def isNullish : Value → Bool
  | undefined | null => true
  | _ => false

/-- Whether the value counts as true. Zero, NaN and whatever is empty count as false. -/
def isTruthy : Value → Bool
  | undefined | null => false
  | bool b => b
  | number x => !(x == 0) && !x.isNaN
  | text s => !s.isEmpty
  | array items => !items.isEmpty
  | date _ | object _ => true

def items? : Value → Option (List Value)
  | array items => some items
  | _ => none

def text? : Value → Option String
  | text s => some s
  | _ => none

/-- The number that a text spells: zero if it is blank, NaN if it spells none. -/
def numberOfText (s : String) : Float :=
  let s := trim s
  if s.isEmpty then 0 else (readFloat? s).getD notANumber

/-- The number of a value: milliseconds for an instant, the number of its only item for an array. -/
def toNumber : Value → Float
  | undefined | object _ => notANumber
  | null => 0
  | bool b => if b then 1 else 0
  | number x => x
  | text s => numberOfText s
  | date t => Float.ofInt t.millis
  | array [] => 0
  | array [v] => toNumber v
  | array (_ :: _ :: _) => notANumber

def joinTexts (separator : String) : List String → String
  | [] => ""
  | [s] => s
  | s :: ss => s ++ separator ++ joinTexts separator ss

mutual

/-- The text of a value. An array is the texts of its items with commas between them. -/
def toText : Value → String
  | undefined => "undefined"
  | null => "null"
  | bool b => if b then "true" else "false"
  | number x => numberText x
  | text s => s
  | date t => t.isoText
  | array items => joinTexts "," (itemTexts items)
  | object _ => "[object Object]"

/-- The texts of the items of an array, empty for those that are missing or null. -/
def itemTexts : List Value → List String
  | [] => []
  | v :: vs => (if v.isNullish then "" else toText v) :: itemTexts vs

end

/-- The text of a value, empty when it is missing or null. -/
def toOutput (v : Value) : String :=
  if v.isNullish then "" else v.toText

/-- The position that a text spells, with an optional plus sign. -/
def readIndex? (s : String) : Option Nat :=
  match s.toList with
  | '+' :: ds => readNat? ds
  | ds => readNat? ds

/-- The named member of an object, the item of an array at a position, or the length of an array or
text. -/
def get (v : Value) (name : String) : Value :=
  match v with
  | object members => (Entries.get? members name).getD undefined
  | array items =>
    if name == "length" then number (Float.ofNat items.length)
    else ((readIndex? name).bind fun i => items[i]?).getD undefined
  | text s => if name == "length" then number (Float.ofNat s.length) else undefined
  | _ => undefined

/-- Equality without coercion. Two arrays or objects are never equal, nor is NaN to itself. -/
def strictEq : Value → Value → Bool
  | number x, number y => x == y
  | undefined, undefined | null, null => true
  | bool a, bool b => a == b
  | text s, text t => s == t
  | date t, date u => t == u
  | _, _ => false

/-- The order of two values: that of texts for two texts, and else that of their numbers. -/
def compare (v w : Value) : Option Ordering :=
  match v, w with
  | text s, text t => some (compareTexts s t)
  | _, _ => compareNumbers v.toNumber w.toNumber

/-- The instant of a value: a number counts milliseconds, a text is an ISO timestamp. -/
def toInstant? : Value → Option Instant
  | date t => some t
  | number x => if x.isFinite then Instant.ofMillis? (toInt64Clamped x) else none
  | text s => Instant.ofIso? s
  | _ => none

end Value

end ChartTemplate
