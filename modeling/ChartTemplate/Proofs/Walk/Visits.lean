import ChartTemplate.Proofs.Walk.Run

/-!
# Visits of walks that only look

A visitor that changes nothing follows `Pass.idle`: its walk leaves the document as it is
(`node_idle`), and `Pass.idle.visits` are the members that hold no array, wherever they are. A pass
that puts no texts in the place of values visits no other members than these
(`exists_idle_visit`), with the same values: what it fills are columns, in which no member is.
-/

namespace ChartTemplate

open Entries (keys get? insertAll)

namespace Pass

/-- The pass puts no text in the place of a value. -/
structure KeepsValues (p : Pass) : Prop where
  relabel : ∀ owner key, p.relabel owner key = none
  settle : ∀ path key, p.settle path key = none

theorem keepsValues_idle : idle.KeepsValues := ⟨fun _ _ => rfl, fun _ _ => rfl⟩

variable {p : Pass}

theorem KeepsValues.entering (h : p.KeepsValues) (pl : Place) (k : String) (v : Json) :
    p.entering pl k v = v :=
  entering_of_relabel_none (by simp [h.relabel])

theorem KeepsValues.settled? (h : p.KeepsValues) (pl : Place) (k : String) (v : Json) :
    p.settled? pl k v = none := by
  simp [Pass.settled?, h.relabel, h.settle]

theorem KeepsValues.edit (h : p.KeepsValues) {path k : String} {x : Json} {ms : Members}
    (hget : get? ms k = some x) :
    p.edit path k x ms = insertAll ms (p.filling? path k x).toList := by
  have hrewrite : p.rewrite path k x = x := by
    rw [rewrite, h.settle]
    cases x with
    | obj inner => simp [enter, entered, h.entering]
    | _ => rfl
  rw [Pass.edit, hrewrite, Entries.insert_eq_self]
  rw [Entries.get?_insertAll, Entries.lastWrite?_eq_none_iff.2 (not_mem_keys_filling? path k x),
    hget]
  rfl

theorem filled_idle (pl : Place) (taken : List String) (ms : Members) :
    idle.filled pl taken ms = [] := by
  induction ms generalizing taken with
  | nil => rfl
  | cons m ms ih =>
    have hfires : idle.fires? pl taken m.1 m.2 = none := by
      simp [fires?, filling?, idle]
    rw [filled, hfires, Option.toList_none, List.nil_append, ih]

mutual

theorem node_idle (pl : Place) (j : Json) : idle.node pl j = j := by
  cases j with
  | arr js => rw [node, items_idle pl 0 js]
  | obj ms => rw [node, filled_idle, Entries.insertAll_nil, members_idle pl ms]
  | _ => rfl

theorem members_idle (pl : Place) (ms : List (String × Json)) : idle.members pl ms = ms := by
  match ms with
  | [] => rfl
  | (k, v) :: ms =>
    rw [members, keepsValues_idle.settled?, members_idle pl ms]
    dsimp only
    rw [node_idle (.member pl.path k) v]

theorem items_idle (pl : Place) (i : Nat) (js : List Json) : idle.items pl i js = js := by
  match js with
  | [] => rfl
  | j :: js => rw [items, node_idle (pl.nth i) j, items_idle pl (i + 1) js]

end

theorem memberVisits_idle_cons (pl : Place) (k : String) (v : Json) (ms : Members) :
    idle.memberVisits pl [] ((k, v) :: ms) =
      (if v.isArray then [] else [⟨pl.path, k, v⟩]) ++ idle.visits (.member pl.path k) v ++
        idle.memberVisits pl [] ms := by
  have hfires : idle.fires? pl [] k v = none := by
    simp [fires?, filling?, idle]
  rw [memberVisits, keepsValues_idle.settled?, keepsValues_idle.entering, hfires]
  simp

mutual

theorem exists_idle_visit (h : p.KeepsValues) (pl pl' : Place) (j : Json) {m : MemberVisit}
    (hm : m ∈ p.visits pl j) : ∃ path, ⟨path, m.key, m.value⟩ ∈ idle.visits pl' j := by
  cases j with
  | arr js =>
    rw [visits] at hm ⊢
    exact exists_idle_itemVisit h pl pl' 0 0 js hm
  | obj ms =>
    rw [visits] at hm ⊢
    exact exists_idle_memberVisit h pl pl' [] ms hm
  | _ => rw [visits_scalar rfl] at hm; exact absurd hm List.not_mem_nil

theorem exists_idle_memberVisit (h : p.KeepsValues) (pl pl' : Place) (taken : List String)
    (ms : List (String × Json)) {m : MemberVisit} (hm : m ∈ p.memberVisits pl taken ms) :
    ∃ path, ⟨path, m.key, m.value⟩ ∈ idle.memberVisits pl' [] ms := by
  match ms with
  | [] => exact absurd hm List.not_mem_nil
  | (k, v) :: ms =>
    rw [memberVisits, h.settled?, h.entering] at hm
    rw [memberVisits_idle_cons]
    rcases List.mem_append.1 hm with hm | hm
    · split at hm
      · exact absurd hm List.not_mem_nil
      · rcases List.mem_append.1 hm with hm | hm
        · split at hm
          · exact absurd hm List.not_mem_nil
          · rename_i harr
            obtain rfl := List.mem_singleton.1 hm
            exact ⟨pl'.path, by simp [harr]⟩
        · obtain ⟨path, hpath⟩ :=
            exists_idle_visit h (.member pl.path k) (.member pl'.path k) v hm
          exact ⟨path, List.mem_append_left _ (List.mem_append_right _ hpath)⟩
    · obtain ⟨path, hpath⟩ := exists_idle_memberVisit h pl pl' _ ms hm
      exact ⟨path, List.mem_append_right _ hpath⟩

theorem exists_idle_itemVisit (h : p.KeepsValues) (pl pl' : Place) (i i' : Nat) (js : List Json)
    {m : MemberVisit} (hm : m ∈ p.itemVisits pl i js) :
    ∃ path, ⟨path, m.key, m.value⟩ ∈ idle.itemVisits pl' i' js := by
  match js with
  | [] => exact absurd hm List.not_mem_nil
  | j :: js =>
    rw [itemVisits] at hm ⊢
    rcases List.mem_append.1 hm with hm | hm
    · obtain ⟨path, hpath⟩ := exists_idle_visit h (pl.nth i) (pl'.nth i') j hm
      exact ⟨path, List.mem_append_left _ hpath⟩
    · obtain ⟨path, hpath⟩ := exists_idle_itemVisit h pl pl' (i + 1) (i' + 1) js hm
      exact ⟨path, List.mem_append_right _ hpath⟩

end

end Pass

theorem follows_idle {σ : Type} {look : σ → String → Members → String → σ}
    {note : σ → MemberVisit → σ}
    (h : ∀ s k ms path x, get? ms k = some x → look s k ms path = note s ⟨path, k, x⟩) :
    (Visitor.ofMember fun s k ms path => (look s k ms path, ms)).Follows Pass.idle note where
  member s k ms path x _ hget _ :=
    Prod.ext (h s k ms path x hget) (Pass.keepsValues_idle.edit hget).symm
  element _ _ _ _ := rfl
  leaf _ _ _ _ := rfl

end ChartTemplate
