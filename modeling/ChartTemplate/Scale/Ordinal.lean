import ChartTemplate.Scale.Kind

/-!
# Ordinal scales

The entries of the domain take the entries of the range in turn, over and over. Unless a result for
unknown values is set, a value that is not in the domain is added at its end.
-/

namespace ChartTemplate

structure Ordinal where
  /-- The entries of the domain. -/
  domain : List Value
  /-- The entries of the range. -/
  range : List Value
  /-- The result for values that are not in the domain; without one they are added to it. -/
  unknown : Option Value

namespace Ordinal

def default : Ordinal := ⟨[], [], none⟩

/-- The entry of the range for the `i`th entry of the domain. -/
def entry (s : Ordinal) (i : Nat) : Value :=
  (s.range[i % s.range.length]?).getD (s.unknown.getD .undefined)

/-- The value of the range for a value, and the scale with the domain in which it then is. -/
def apply (s : Ordinal) (v : Value) : Ordinal × Value :=
  match s.domain.findIdx? fun d => d.strictEq v with
  | some i => (s, s.entry i)
  | none =>
    match s.unknown with
    | some u => (s, u)
    | none =>
      let s := { s with domain := s.domain ++ [v] }
      (s, s.entry (s.domain.length - 1))

def call (s : Ordinal) (m : ScaleMethod) (args : List Value) : Except ScaleError (Ordinal × Value) :=
  match m, args.head? with
  | .domain, some v => pure ({ s with domain := Value.distinct (v.items?.getD []) }, .undefined)
  | .domain, none => pure (s, .array s.domain)
  | .range, some v => pure ({ s with range := v.items?.getD [] }, .undefined)
  | .range, none => pure (s, .array s.range)
  | .unknown, some v => pure ({ s with unknown := some v }, .undefined)
  | .unknown, none => pure (s, s.unknown.getD .undefined)
  | _, _ => throw (.unsupported m .ordinal)

end Ordinal

end ChartTemplate
