import ChartTemplate.Proofs.Scale.Steps

/-!
# Ordinal scales are stable

An ordinal scale that is applied to values may add them to its domain. `Ordinal.stable` : the domain
changes at its end only, a value is added at most once, and keeps its place and its entry of the range
whatever the scale is applied to later. What carries this is that a place in a domain that was found is
found again after values are added behind it (`place_after_append`).

Values that do not equal themselves, as NaN and arrays, are never found again. They are added each time.
-/

namespace ChartTemplate

open Value (Unrepeated)

namespace Ordinal

def after (s : Ordinal) (vs : List Value) : Ordinal :=
  vs.foldl (fun s v => (s.apply v).1) s

/-- The place of the first entry of the domain that equals a value. -/
def place? (s : Ordinal) (v : Value) : Option Nat :=
  s.domain.findIdx? fun d => d.strictEq v

variable {s : Ordinal} {v : Value}

theorem after_append (s : Ordinal) (us vs : List Value) : s.after (us ++ vs) = (s.after us).after vs :=
  List.foldl_append

theorem after_cons (s : Ordinal) (v : Value) (vs : List Value) : s.after (v :: vs) = (s.apply v).1.after vs :=
  rfl

/-! ## One application -/

theorem apply_of_place {i : Nat} (h : s.place? v = some i) : s.apply v = (s, s.entry i) := by
  unfold apply
  rw [show (s.domain.findIdx? fun d => d.strictEq v) = some i from h]

theorem apply_of_unknown {u : Value} (hv : s.place? v = none) (hu : s.unknown = some u) :
    s.apply v = (s, u) := by
  unfold apply
  rw [show (s.domain.findIdx? fun d => d.strictEq v) = none from hv, hu]

theorem apply_of_new (hv : s.place? v = none) (hu : s.unknown = none) :
    s.apply v = ({ s with domain := s.domain ++ [v] }, s.entry s.domain.length) := by
  unfold apply
  rw [show (s.domain.findIdx? fun d => d.strictEq v) = none from hv, hu]
  simp [entry, hu]

theorem apply_fst (s : Ordinal) (v : Value) :
    (s.apply v).1 = { s with domain := (s.apply v).1.domain } := by
  cases hv : s.place? v with
  | some i => rw [apply_of_place hv]
  | none =>
    cases hu : s.unknown with
    | some u => rw [apply_of_unknown hv hu, ← hu]
    | none => rw [apply_of_new hv hu, ← hu]

theorem after_eq (s : Ordinal) (vs : List Value) : s.after vs = { s with domain := (s.after vs).domain } := by
  induction vs generalizing s with
  | nil => rfl
  | cons v vs ih =>
    rw [after_cons, ih, apply_fst]

theorem entry_after (s : Ordinal) (vs : List Value) (i : Nat) : (s.after vs).entry i = s.entry i := by
  rw [after_eq]
  rfl

theorem unknown_after (s : Ordinal) (vs : List Value) : (s.after vs).unknown = s.unknown := by
  rw [after_eq]

theorem after_of_unknown {u : Value} (hu : s.unknown = some u) (vs : List Value) : s.after vs = s := by
  induction vs with
  | nil => rfl
  | cons v vs ih =>
    rw [after_cons]
    cases hv : s.place? v with
    | some i => rw [apply_of_place hv, ih]
    | none => rw [apply_of_unknown hv hu, ih]

/-! ## Domains and places -/

/-- The values that are added are some of those that the scale is applied to, in order. -/
theorem exists_added (s : Ordinal) (vs : List Value) :
    ∃ added, added.Sublist vs ∧ (s.after vs).domain = s.domain ++ added := by
  induction vs generalizing s with
  | nil => exact ⟨[], .slnil, (List.append_nil _).symm⟩
  | cons v vs ih =>
    obtain ⟨added, hsub, hdomain⟩ := ih (s.apply v).1
    rw [after_cons, hdomain]
    cases hv : s.place? v with
    | some i => exact ⟨added, hsub.cons v, by rw [apply_of_place hv]⟩
    | none =>
      cases hu : s.unknown with
      | some u => exact ⟨added, hsub.cons v, by rw [apply_of_unknown hv hu]⟩
      | none => exact ⟨v :: added, hsub.cons_cons v, by rw [apply_of_new hv hu]; simp⟩

theorem place_after {i : Nat} (h : s.place? v = some i) (vs : List Value) :
    (s.after vs).place? v = some i := by
  obtain ⟨added, -, hdomain⟩ := s.exists_added vs
  rw [place?, hdomain, List.findIdx?_append, show (s.domain.findIdx? fun d => d.strictEq v) = some i from h]
  rfl

theorem exists_place_apply (hunknown : s.unknown = none) (hv : v.strictEq v = true) :
    ∃ i, (s.apply v).1.place? v = some i ∧ (s.apply v).2 = s.entry i := by
  cases hplace : s.place? v with
  | some i => exact ⟨i, by rw [apply_of_place hplace]; exact ⟨hplace, rfl⟩⟩
  | none =>
    refine ⟨s.domain.length, ?_⟩
    rw [apply_of_new hplace hunknown]
    refine ⟨?_, rfl⟩
    rw [place?, List.findIdx?_append, show (s.domain.findIdx? fun d => d.strictEq v) = none from hplace]
    simp [hv]

theorem exists_entry (hrange : s.range ≠ []) (i : Nat) :
    ∃ y, s.range[i % s.range.length]? = some y ∧ s.entry i = y := by
  have hlt : i % s.range.length < s.range.length := Nat.mod_lt _ (List.length_pos_iff.2 hrange)
  exact ⟨_, List.getElem?_eq_getElem hlt, by rw [entry, List.getElem?_eq_getElem hlt]; rfl⟩

/-- **A value keeps its entry** of the range, whatever the scale is applied to after it. -/
theorem apply_after (hunknown : s.unknown = none) (hv : v.strictEq v = true) :
    ∃ i, (s.apply v).2 = s.entry i ∧ ∀ ws, (s.after (v :: ws)).place? v = some i ∧
      ((s.after (v :: ws)).apply v).2 = s.entry i := by
  obtain ⟨i, hplace, hentry⟩ := exists_place_apply hunknown hv
  refine ⟨i, hentry, fun ws => ?_⟩
  have hafter := place_after hplace ws
  exact ⟨hafter, by rw [after_cons, apply_of_place hafter, ← after_cons, entry_after]⟩

end Ordinal

/-! ## Runs -/

namespace Scale

/-- A run of an ordinal scale leads to an ordinal scale, in whose domain no entry equals a later one. -/
theorem exists_run_ordinal (args : List Value) (steps : List ScaleStep) :
    ∃ s, run .ordinal args steps = .ok (.ordinal s) ∧ Unrepeated s.domain :=
  exists_run .ordinal ⟨_, rfl⟩ (fun s t h => by cases h; exact ⟨_, rfl⟩) (fun s c h => nomatch h) args steps

theorem run_append {kind : ScaleKind} {args : List Value} {steps : List ScaleStep} {s : Scale}
    (h : run kind args steps = .ok s) (more : List ScaleStep) :
    run kind args (steps ++ more) = more.foldlM advance s := by
  rw [run, List.foldlM_append, ← run, h]
  rfl

theorem foldlM_advance_ordinal (s : Ordinal) (vs : List Value) :
    (vs.map ScaleStep.apply).foldlM advance (ordinal s) = .ok (ordinal (s.after vs)) := by
  induction vs generalizing s with
  | nil => rfl
  | cons v vs ih => exact ih (s.apply v).1

end Scale

/-- **Ordinal scales are stable.** Whatever an ordinal scale went through, it can be applied to any values.
Without a result for unknown values, this adds some of them at the end of the domain; no entry of the
domain equals a later one, so that no value equals two that were added. A value that equals itself gets
the entry of a range that has any that belongs to its place in the domain, and keeps its place and entry.
With a result for unknown values, the domain stays as it is. -/
theorem Ordinal.stable (args : List Value) (steps : List ScaleStep) :
    ∃ s : Ordinal, Scale.run .ordinal args steps = .ok (.ordinal s) ∧
      (∀ vs, Scale.run .ordinal args (steps ++ vs.map .apply) = .ok (.ordinal (s.after vs))) ∧
      (s.unknown = none → s.range ≠ [] →
        (∀ vs, ∃ added, added.Sublist vs ∧ (s.after vs).domain = s.domain ++ added ∧
          Unrepeated (s.after vs).domain ∧ ∀ v, (added.countP fun u => u.strictEq v) ≤ 1) ∧
        ∀ us v, v.strictEq v = true → ∃ i y, s.range[i % s.range.length]? = some y ∧
          ((s.after us).apply v).2 = y ∧
          ∀ ws, ((s.after (us ++ v :: ws)).domain.findIdx? fun d => d.strictEq v) = some i ∧
            ((s.after (us ++ v :: ws)).apply v).2 = y) ∧
      ∀ u, s.unknown = some u → ∀ vs, (s.after vs).domain = s.domain := by
  obtain ⟨s, hrun, hdomain⟩ := Scale.exists_run_ordinal args steps
  have hmore (vs : List Value) :
      Scale.run .ordinal args (steps ++ vs.map .apply) = .ok (.ordinal (s.after vs)) := by
    rw [Scale.run_append hrun, Scale.foldlM_advance_ordinal]
  refine ⟨s, hrun, hmore, fun hunknown hrange => ⟨fun vs => ?_, fun us v hv => ?_⟩, fun u hu vs => ?_⟩
  · obtain ⟨added, hsub, hadded⟩ := s.exists_added vs
    have hafter : Unrepeated (s.after vs).domain := Scale.sound_run (hmore vs)
    refine ⟨added, hsub, hadded, hafter, fun v => ?_⟩
    rw [hadded] at hafter
    have hnew : Unrepeated added := List.Pairwise.sublist (List.sublist_append_right _ _) hafter
    exact hnew.countP_le_one v
  · obtain ⟨i, hentry, hlater⟩ := (s.after us).apply_after ((s.unknown_after us).trans hunknown) hv
    obtain ⟨y, hy, hiy⟩ := s.exists_entry hrange i
    rw [s.entry_after, hiy] at hentry
    refine ⟨i, y, hy, hentry, fun ws => ?_⟩
    have hws := hlater ws
    rw [s.entry_after, hiy, ← after_append] at hws
    exact hws
  · rw [after_of_unknown hu]

/-- Two colours, and a result for unknown values. -/
theorem Ordinal.stable_colors :
    let colors : List Value := [.text "red", .text "blue"]
    let s : Ordinal := ⟨[], colors, none⟩
    let t : Ordinal := ⟨[], colors, some (.text "gray")⟩
    (∃ i y, colors[i % 2]? = some y ∧ ((s.after [.text "a"]).apply (.text "b")).2 = y ∧
      ∀ ws, ((s.after (.text "a" :: .text "b" :: ws)).domain.findIdx?
          fun d => d.strictEq (.text "b")) = some i ∧
        ((s.after (.text "a" :: .text "b" :: ws)).apply (.text "b")).2 = y) ∧
      ∀ vs, (t.after vs).domain = [] := by
  intro colors s t
  obtain ⟨s', hs, -, himplicit, -⟩ := Ordinal.stable [.array colors] []
  obtain ⟨t', ht, -, -, hexplicit⟩ := Ordinal.stable [.array colors] [.call .unknown [.text "gray"]]
  obtain rfl : s = s' := by
    cases hs
    rfl
  obtain rfl : t = t' := by
    cases ht
    rfl
  exact ⟨(himplicit rfl (List.cons_ne_nil _ _)).2 [.text "a"] (.text "b") rfl, hexplicit _ rfl⟩

end ChartTemplate
