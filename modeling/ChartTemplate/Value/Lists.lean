import ChartTemplate.Value.Basic

/-!
# Lists of values

Extremes, statistics and filters of lists, and the text of a list of texts in quotes.
-/

namespace ChartTemplate

/-- The sum of a list; of an empty one, negative zero. -/
def sumOf (xs : List Float) : Float :=
  xs.foldl (· + ·) negativeZero

namespace Value

def isComparable (v : Value) : Bool :=
  !v.isNullish && (v.compare v).isSome

/-- The comparable value that no later one beats, where `beaten` is the order of a value to one that
beats it; missing if there is none. -/
def extreme (beaten : Ordering) (vs : List Value) : Value :=
  let pick (best : Option Value) (v : Value) : Option Value :=
    match best with
    | some b => if b.compare v == some beaten then some v else some b
    | none => some v
  ((vs.filter isComparable).foldl pick none).getD undefined

def least (vs : List Value) : Value :=
  extreme .gt vs

def greatest (vs : List Value) : Value :=
  extreme .lt vs

def numeric (vs : List Value) : List Float :=
  ((vs.filter fun v => !v.isNullish).map toNumber).filter fun x => !x.isNaN

/-- The mean of the numbers; missing if there are none. -/
def mean (vs : List Value) : Value :=
  let xs := numeric vs
  if xs.isEmpty then undefined else number (sumOf xs / Float.ofNat xs.length)

/-- The median of the numbers; missing if there are none. -/
def median (vs : List Value) : Value :=
  let xs := (numeric vs).mergeSort fun x y => !(y < x)
  if xs.isEmpty then undefined
  else
    let lower := (xs.length - 1) / 2
    let low := xs.getD lower 0
    let high := xs.getD (lower + 1) low
    let position := Float.ofNat (xs.length - 1) * 0.5
    number (low + (high - low) * (position - Float.ofNat lower))

def total (vs : List Value) : Value :=
  number (sumOf (numeric vs))

/-- Whether a value stands to another in the relation that an operator names; any operator but the
four comparisons stands for equality. -/
def relates (op : String) (v w : Value) : Bool :=
  let order := v.compare w
  match op with
  | ">" => order == some .gt
  | ">=" => order == some .gt || order == some .eq
  | "<" => order == some .lt
  | "<=" => order == some .lt || order == some .eq
  | _ => v.strictEq w

/-- The characters of a list of texts in quotes, between brackets. -/
def quotedList (texts : List String) : String :=
  "[" ++ joinTexts "," (texts.map fun s => "\"" ++ s ++ "\"") ++ "]"

/-- The texts of the values in quotes, between brackets. -/
def quotedValues (vs : List Value) : String :=
  quotedList (vs.map toText)

/-- The values without those that equal an earlier one. -/
def distinct (vs : List Value) : List Value :=
  vs.foldl (fun seen v => if seen.any fun s => s.strictEq v then seen else seen ++ [v]) []

/-- The first text and the second if either operand is one, or is an instant or composite; else the
sum of the numbers. -/
def add (v w : Value) : Value :=
  let textual : Value → Bool
    | text _ | date _ | array _ | object _ => true
    | _ => false
  if textual v || textual w then text (v.toText ++ w.toText) else number (v.toNumber + w.toNumber)

end Value

end ChartTemplate
