/-!
# Faults

A fault is a step that has no result at all: it does not belong to the input's meaning, and no
caller handles it. Faults end the whole computation. What it was to work on is left as it is at the time,
unless the stack is full: then the process ends.
-/

namespace ChartTemplate

/-- Why a computation was cut off. -/
inductive Fault where
  /-- A decimal point was to be placed in a number that has no digits. -/
  | noDigits
  /-- A number was to be kept between bounds that are not in order. -/
  | unorderedBounds
  /-- A date left the supported range of years. -/
  | dateRange
  /-- Every zeroth boundary of a calendar unit was asked for. -/
  | zeroStep
  /-- The stack has no room left. -/
  | fullStack
deriving DecidableEq, Repr

/-- Whether a fault ends the process, so that nothing is left. -/
def Fault.endsProcess : Fault → Bool
  | fullStack => true
  | _ => false

/-- A computation that may be refused with an error `ε` or cut off by a fault. -/
abbrev Checked (ε α : Type) := ExceptT ε (Except Fault) α

end ChartTemplate
