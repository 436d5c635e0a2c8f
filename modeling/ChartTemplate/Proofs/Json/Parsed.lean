import ChartTemplate.Spec.Relaxed

/-!
# What holds of documents that were read

A property of documents, at a depth that containers may have, holds of everything that is read if it
holds of scalars and numbers that are read and is handed on from what a container holds to the container
(`Parsed`). A repeated key is merged into its first place, so of an object only what was read for its
members is known.
-/

namespace ChartTemplate.Json.Read

structure Parsed (P : Nat → Json → Prop) : Prop where
  scalar : ∀ {d j}, j.isComposite = false → (∀ n, j ≠ .num n) → P d j
  number : ∀ {d n cs r}, number? cs = some (n, r) → P d (.num n)
  arr : ∀ {d js}, (∀ j ∈ js, P d j) → P (d + 1) (.arr js)
  obj : ∀ {d ms}, (∀ m ∈ ms, P d m.2) → P (d + 1) (.obj (Entries.ofList ms))

namespace Parsed

variable {P : Nat → Json → Prop}

theorem empty_obj (hP : Parsed P) (depth : Nat) : P (depth + 1) (.obj []) := by
  have hnone : ∀ m ∈ ([] : List (String × Json)), P depth m.2 := fun _ hm => absurd hm List.not_mem_nil
  exact hP.obj hnone

mutual

theorem of_value? (hP : Parsed P) (fuel depth : Nat) (cs : List Char) {j : Json} {r : List Char}
    (h : value? fuel depth cs = some (j, r)) : P depth j := by
  cases fuel with
  | zero => simp [value?] at h
  | succ fuel =>
    rw [value?] at h
    split at h
    · cases h; exact hP.scalar rfl nofun
    · cases h; exact hP.scalar rfl nofun
    · cases h; exact hP.scalar rfl nofun
    · obtain ⟨_, _, h⟩ := Option.map_eq_some_iff.1 h
      cases h; exact hP.scalar rfl nofun
    · split at h
      · cases h
      · split at h
        · cases h; exact hP.arr fun _ hj => absurd hj List.not_mem_nil
        · obtain ⟨⟨js, _⟩, hjs, h⟩ := Option.map_eq_some_iff.1 h
          cases h
          exact hP.arr (of_items? hP fuel _ _ hjs)
    · split at h
      · cases h
      · split at h
        · cases h; exact hP.empty_obj _
        · obtain ⟨⟨ms, _⟩, hms, h⟩ := Option.map_eq_some_iff.1 h
          cases h
          exact hP.obj (of_members? hP fuel _ _ hms)
    · obtain ⟨⟨n, _⟩, hn, h⟩ := Option.map_eq_some_iff.1 h
      cases h; exact hP.number hn

theorem of_items? (hP : Parsed P) (fuel depth : Nat) (cs : List Char) {js : List Json} {r : List Char}
    (h : items? fuel depth cs = some (js, r)) : ∀ j ∈ js, P depth j := by
  cases fuel with
  | zero => simp [items?] at h
  | succ fuel =>
    rw [items?] at h
    obtain ⟨⟨j, r'⟩, hj, h⟩ := Option.bind_eq_some_iff.1 h
    have hfirst := of_value? hP fuel depth cs hj
    dsimp only at h
    split at h
    · obtain ⟨⟨js', _⟩, hjs, h⟩ := Option.bind_eq_some_iff.1 h
      cases h
      exact List.forall_mem_cons.2 ⟨hfirst, of_items? hP fuel depth _ hjs⟩
    · cases h
      exact List.forall_mem_singleton.2 hfirst
    · cases h

theorem of_members? (hP : Parsed P) (fuel depth : Nat) (cs : List Char) {ms : List (String × Json)}
    {r : List Char} (h : members? fuel depth cs = some (ms, r)) : ∀ m ∈ ms, P depth m.2 := by
  cases fuel with
  | zero => simp [members?] at h
  | succ fuel =>
    rw [members?] at h
    split at h
    · obtain ⟨⟨k, r'⟩, _, h⟩ := Option.bind_eq_some_iff.1 h
      dsimp only at h
      split at h
      · obtain ⟨⟨j, r''⟩, hj, h⟩ := Option.bind_eq_some_iff.1 h
        have hfirst := of_value? hP fuel depth _ hj
        dsimp only at h
        split at h
        · obtain ⟨⟨ms', _⟩, hms, h⟩ := Option.bind_eq_some_iff.1 h
          cases h
          exact List.forall_mem_cons.2 ⟨hfirst, of_members? hP fuel depth _ hms⟩
        · cases h
          exact List.forall_mem_singleton.2 hfirst
        · cases h
      · cases h
    · cases h

end

theorem of_parseChars? (hP : Parsed P) {cs : List Char} {j : Json} (h : parseChars? cs = some j) :
    P maxDepth j := by
  rw [parseChars?] at h
  split at h
  · rename_i hvalue
    split at h
    · cases h
      exact of_value? hP _ _ _ hvalue
    · cases h
  · cases h

/-- **The property holds of every specification** that is read. -/
theorem of_safeParse (hP : Parsed P) (text : String) : P maxDepth (safeParse text) := by
  rw [safeParse]
  split
  · exact hP.empty_obj _
  · cases h : parseChars? (relaxChars text.toList) with
    | some j => exact of_parseChars? hP h
    | none =>
      have hmembers : ∀ m ∈ [("options", Json.obj []), ("series", Json.arr [])], P 126 m.2 := by
        simp only [List.forall_mem_cons]
        exact ⟨hP.empty_obj _, hP.arr fun _ hj => absurd hj List.not_mem_nil,
          fun _ hm => absurd hm List.not_mem_nil⟩
      exact hP.obj hmembers

end Parsed

end ChartTemplate.Json.Read
