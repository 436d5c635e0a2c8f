/-!
# Source fields

A field of a specification whose name ends in `Src`, in any case, names a column: its values belong
into the field without the suffix. An object under the key `encode` names a column for each of its
attributes.
-/

namespace ChartTemplate

/-- Whether three characters are the suffix of source fields, in any case. -/
def isSourceSuffix (cs : List Char) : Bool :=
  cs.map Char.toLower == ['s', 'r', 'c']

/-- The name that a source field has without its suffix, which is not empty. -/
def stripSourceSuffix? (key : String) : Option String :=
  let cs := key.toList
  let base := cs.take (cs.length - 3)
  if base.isEmpty || !isSourceSuffix (cs.drop (cs.length - 3)) then none
  else some (String.ofList base)

theorem length_lt_of_stripSourceSuffix? {key base : String} (h : stripSourceSuffix? key = some base) :
    base.toList.length < key.toList.length := by
  dsimp only [stripSourceSuffix?] at h
  split at h
  · cases h
  · rename_i hcond
    cases h
    rw [String.toList_ofList, List.length_take]
    simp only [Bool.or_eq_true, not_or, Bool.not_eq_true, List.isEmpty_eq_false_iff] at hcond
    have := List.length_pos_iff.2 hcond.1
    rw [List.length_take] at this
    omega

theorem ne_of_stripSourceSuffix? {key base : String} (h : stripSourceSuffix? key = some base) :
    base ≠ key := by
  rintro rfl
  exact absurd (length_lt_of_stripSourceSuffix? h) (Nat.lt_irrefl _)

/-- The key of an object that names columns for attributes. -/
def encodeKey : String := "encode"

end ChartTemplate
