import ChartTemplate.Proofs.Entries
import ChartTemplate.Proofs.Json.Parsed
import ChartTemplate.Proofs.Json.Scaled

/-!
# Numbers in range

`Json.InRange j` says that the integers in `j` have at most 64 bits and that its floats are finite.
Documents that were read have this property (`inRange_safeParse`).
-/

namespace ChartTemplate

/-- An integer of at most 64 bits, or a finite float. -/
def JsonNumber.InRange : JsonNumber → Prop
  | .int n => n.natAbs ≤ Json.Read.maxSignificand
  | .float x => x.isFinite = true

mutual

/-- Every number in the document is in range. -/
def Json.InRange : Json → Prop
  | .num n => n.InRange
  | .arr js => InRangeItems js
  | .obj ms => InRangeMembers ms
  | _ => True

/-- Every number in the documents is in range. -/
def InRangeItems : List Json → Prop
  | [] => True
  | j :: js => j.InRange ∧ InRangeItems js

/-- Every number in the values of the members is in range. -/
def InRangeMembers : List (String × Json) → Prop
  | [] => True
  | (_, j) :: ms => j.InRange ∧ InRangeMembers ms

end

theorem inRangeItems_iff {js : List Json} : InRangeItems js ↔ ∀ j ∈ js, j.InRange := by
  induction js with
  | nil => simp [InRangeItems]
  | cons j js ih => rw [InRangeItems, ih, List.forall_mem_cons]

theorem inRangeMembers_iff {ms : Members} : InRangeMembers ms ↔ ∀ m ∈ ms, m.2.InRange := by
  induction ms with
  | nil => simp [InRangeMembers]
  | cons m ms ih => rw [InRangeMembers, ih, List.forall_mem_cons]

namespace Json.Read

/-! ## Numbers -/

theorem significand_le {n : Nat} (hn : n ≤ maxSignificand) (cs : List Char) :
    (significand n cs).1 ≤ maxSignificand := by
  induction cs generalizing n with
  | nil => exact hn
  | cons c cs ih =>
    rw [significand]
    split
    · dsimp only
      split
      · exact hn
      · exact ih (by omega)
    · exact hn

theorem wholePart_le (c : Char) (cs : List Char) : (wholePart c cs).1 ≤ maxSignificand := by
  unfold wholePart
  split
  · exact Nat.zero_le _
  · exact significand_le (Nat.zero_le _) _

theorem isMagnitude_significand {n : Nat} (hn : n ≤ maxSignificand) : IsMagnitude n.toUInt64.toFloat := by
  obtain ⟨m, e, hparts, -⟩ := exists_significand (n := n) (by rw [maxSignificand] at hn; omega)
  exact ⟨m, e, hparts⟩

section

variable {n : Nat} {e : Int} {x : Float} {cs r : List Char}

theorem isMagnitude_withExponent? {below : Bool} (hn : n ≤ maxSignificand)
    (h : withExponent? n e below cs = some x) : IsMagnitude x := by
  unfold withExponent? at h
  split at h
  · cases h
  · dsimp only at h
    split at h
    · split at h
      · cases h
      · rw [← Option.some.inj h]
        exact isMagnitude_significand (n := 0) (Nat.zero_le _)
    · exact isMagnitude_scaleByTen? (isMagnitude_significand hn) h

theorem isMagnitude_exponent? (hn : n ≤ maxSignificand) (h : exponent? n e cs = some (x, r)) :
    IsMagnitude x := by
  obtain ⟨y, hread, hy⟩ := Option.map_eq_some_iff.1 h
  rw [← (Prod.mk.inj hy).1]
  exact isMagnitude_withExponent? hn hread

theorem isMagnitude_scaledNumber? (hn : n ≤ maxSignificand) (h : scaledNumber? n e cs = some (x, r)) :
    IsMagnitude x := by
  unfold scaledNumber? at h
  split at h
  · exact isMagnitude_exponent? hn h
  · exact isMagnitude_exponent? hn h
  · obtain ⟨y, hread, hy⟩ := Option.map_eq_some_iff.1 h
    rw [← (Prod.mk.inj hy).1]
    exact isMagnitude_scaleByTen? (isMagnitude_significand hn) hread

theorem isMagnitude_fraction? (hn : n ≤ maxSignificand) (h : fraction? n e cs = some (x, r)) :
    IsMagnitude x := by
  unfold fraction? at h
  dsimp only at h
  split at h
  · cases h
  · exact isMagnitude_scaledNumber? (significand_le hn cs) h

/-- An integer of at most 64 bits, or a float that is finite and has no sign. -/
def InRange : Nat ⊕ Float → Prop
  | .inl n => n ≤ maxSignificand
  | .inr x => IsMagnitude x

theorem inRange_wholeNumber? {dropped : Nat} {y : Nat ⊕ Float} (hn : n ≤ maxSignificand)
    (h : wholeNumber? n dropped = some y) : InRange y := by
  unfold wholeNumber? at h
  split at h
  · exact Option.some.inj h ▸ hn
  · obtain ⟨x, hread, rfl⟩ := Option.map_eq_some_iff.1 h
    exact isMagnitude_scaleByTen? (isMagnitude_significand hn) hread

theorem inRange_afterWhole? {dropped : Nat} {y : Nat ⊕ Float} (hn : n ≤ maxSignificand)
    (h : afterWhole? n dropped cs = some (y, r)) : InRange y := by
  unfold afterWhole? at h
  split at h
  · obtain ⟨⟨x, r'⟩, hread, hy⟩ := Option.map_eq_some_iff.1 h
    exact (Prod.mk.inj hy).1 ▸ isMagnitude_fraction? hn hread
  · obtain ⟨⟨x, r'⟩, hread, hy⟩ := Option.map_eq_some_iff.1 h
    exact (Prod.mk.inj hy).1 ▸ isMagnitude_exponent? hn hread
  · obtain ⟨⟨x, r'⟩, hread, hy⟩ := Option.map_eq_some_iff.1 h
    exact (Prod.mk.inj hy).1 ▸ isMagnitude_exponent? hn hread
  · split at h
    · cases h
    · obtain ⟨x, hread, hy⟩ := Option.map_eq_some_iff.1 h
      exact (Prod.mk.inj hy).1 ▸ inRange_wholeNumber? hn hread
  · obtain ⟨x, hread, hy⟩ := Option.map_eq_some_iff.1 h
    exact (Prod.mk.inj hy).1 ▸ inRange_wholeNumber? hn hread

theorem inRange_unsigned? {y : Nat ⊕ Float} (h : unsigned? cs = some (y, r)) : InRange y := by
  unfold unsigned? at h
  split at h
  · cases h
  · split at h
    · cases h
    · exact inRange_afterWhole? (wholePart_le _ _) h

/-- **Numbers that are read** are in range. -/
theorem inRange_number? {n : JsonNumber} (h : number? cs = some (n, r)) : n.InRange := by
  unfold number? at h
  split at h
  · obtain ⟨⟨y, r'⟩, hread, hy⟩ := Option.map_eq_some_iff.1 h
    have hrange := inRange_unsigned? hread
    rw [← (Prod.mk.inj hy).1]
    cases y with
    | inl n =>
      unfold negative
      dsimp only
      split
      · exact (isMagnitude_significand hrange).isFinite_neg
      · show (-(n : Int)).natAbs ≤ maxSignificand
        rwa [Int.natAbs_neg, Int.natAbs_natCast]
    | inr x => exact hrange.isFinite_neg
  · obtain ⟨⟨y, r'⟩, hread, hy⟩ := Option.map_eq_some_iff.1 h
    have hrange := inRange_unsigned? hread
    rw [← (Prod.mk.inj hy).1]
    cases y with
    | inl n => exact hrange
    | inr x => exact hrange.isFinite

end

end Json.Read

/-! ## Documents -/

theorem inRange_of_not_num {j : Json} (hscalar : j.isComposite = false) (hnum : ∀ n, j ≠ .num n) :
    j.InRange := by
  cases j with
  | num n => exact absurd rfl (hnum n)
  | arr | obj => cases hscalar
  | _ => trivial

theorem inRangeMembers_insertAll {ms ws : Members} (hms : InRangeMembers ms) (hws : InRangeMembers ws) :
    InRangeMembers (Entries.insertAll ms ws) := by
  rw [inRangeMembers_iff] at *
  exact fun m hm => (Entries.mem_insertAll hm).elim (hms m) (hws m)

theorem parsed_inRange : Json.Read.Parsed fun _ j => j.InRange where
  scalar := inRange_of_not_num
  number h := Json.Read.inRange_number? h
  arr h := inRangeItems_iff.2 h
  obj h := inRangeMembers_insertAll (show InRangeMembers [] from trivial) (inRangeMembers_iff.2 h)

/-- **The numbers of a specification** that is read are in range. -/
theorem inRange_safeParse (text : String) : (safeParse text).InRange :=
  parsed_inRange.of_safeParse text

end ChartTemplate
