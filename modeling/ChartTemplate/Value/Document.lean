import ChartTemplate.Json.Basic
import ChartTemplate.Value.Basic

/-!
# Values as JSON documents

`Value.ofJson` and `Value.toJson` carry values over to documents and back. A document has neither
missing values nor instants: the first become null, the second their ISO text.
-/

namespace ChartTemplate

/-- The bound below which integral floats are written as integers: two to the power of 53. -/
def integerBound : Float := 9007199254740992

/-- The document of a number: an integer if it is integral and small enough, null if it is not
finite. -/
def Json.ofFloat (x : Float) : Json :=
  if fract x == 0 && x.abs < integerBound then .num (.int (truncInt x))
  else if x.isFinite then .num (.float x)
  else .null

namespace Value

mutual

def ofJson : Json → Value
  | .null => null
  | .bool b => bool b
  | .num n => number n.toFloat
  | .str s => text s
  | .arr js => array (ofItems js)
  | .obj ms => object (ofMembers ms)

def ofItems : List Json → List Value
  | [] => []
  | j :: js => ofJson j :: ofItems js

def ofMembers : List (String × Json) → List (String × Value)
  | [] => []
  | (k, j) :: ms => (k, ofJson j) :: ofMembers ms

end

mutual

def toJson : Value → Json
  | undefined | null => .null
  | bool b => .bool b
  | number x => .ofFloat x
  | text s => .str s
  | date t => .str t.isoText
  | array items => .arr (toItems items)
  | object members => .obj (toMembers members)

def toItems : List Value → List Json
  | [] => []
  | v :: vs => toJson v :: toItems vs

def toMembers : List (String × Value) → Members
  | [] => []
  | (k, v) :: ms => (k, toJson v) :: toMembers ms

end

end Value

end ChartTemplate
