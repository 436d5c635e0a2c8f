import ChartTemplate.Proofs.Helper.Lists
import ChartTemplate.Proofs.InPlace.CutOff

/-!
# What steps do to scales

`Scale.Follows` lists all that a step can do to ordinal, band and quantize scales: which settings it
changes, and that what is computed from them is computed anew (`follows_of_advance`). Properties that
steps keep hold of every scale that a run leads to (`run_induction`). One such property is that a scale is
`Sound`: what is computed from other settings is what they give, and no entry of a discrete domain equals
a later one. Scales other than continuous ones come to the end of every run (`exists_run`).
-/

namespace ChartTemplate

/-! ## Lists in which no value equals a later one -/

namespace Value

/-- No value equals a later one. -/
def Unrepeated (vs : List Value) : Prop :=
  vs.Pairwise fun u v => u.strictEq v = false

theorem strictEq_comm (u v : Value) : u.strictEq v = v.strictEq u := by
  cases u with
  | number x =>
    cases v with
    | number y =>
      show (x == y) = (y == x)
      rw [Bool.eq_iff_iff, beq_iff_rank, beq_iff_rank]
      exact ⟨fun ⟨hx, hy, h⟩ => ⟨hy, hx, h.symm⟩, fun ⟨hy, hx, h⟩ => ⟨hx, hy, h.symm⟩⟩
    | _ => rfl
  | _ => cases v <;> first | rfl | exact Bool.beq_comm

theorem unrepeated_concat_iff {vs : List Value} {v : Value} :
    Unrepeated (vs ++ [v]) ↔ Unrepeated vs ∧ (vs.any fun u => u.strictEq v) = false := by
  simp [Unrepeated, List.pairwise_append]

theorem unrepeated_distinct (vs : List Value) : Unrepeated (distinct vs) := by
  induction vs using List.reverseRecOn with
  | nil => exact .nil
  | append_singleton vs v ih =>
    rw [distinct_concat]
    split
    · exact ih
    · next hnew => exact unrepeated_concat_iff.2 ⟨ih, Bool.eq_false_iff.2 hnew⟩

theorem Unrepeated.distinct_eq {vs : List Value} (h : Unrepeated vs) : distinct vs = vs := by
  induction vs using List.reverseRecOn with
  | nil => rfl
  | append_singleton vs v ih =>
    obtain ⟨hvs, hv⟩ := unrepeated_concat_iff.1 h
    rw [distinct_concat, ih hvs, hv, if_neg Bool.false_ne_true]

theorem distinct_sublist (vs : List Value) : (distinct vs).Sublist vs := by
  induction vs using List.reverseRecOn with
  | nil => exact .slnil
  | append_singleton vs v ih =>
    rw [distinct_concat]
    split
    · exact ih.trans (List.sublist_append_left _ _)
    · exact ih.append (.refl _)

/-- No value equals two entries. -/
theorem Unrepeated.countP_le_one {vs : List Value} (h : Unrepeated vs) (v : Value) :
    (vs.countP fun u => u.strictEq v) ≤ 1 := by
  induction h with
  | nil => exact Nat.zero_le _
  | @cons u vs hu _ ih =>
    rw [List.countP_cons]
    split
    · next huv =>
      have hrest : (vs.countP fun w => w.strictEq v) = 0 := by
        refine List.countP_eq_zero.2 fun w hw hwv => ?_
        have huw : u.strictEq w = true := strictEq_trans huv ((strictEq_comm v w).trans hwv)
        rw [hu w hw] at huw
        cases huw
      omega
    · exact ih

theorem Unrepeated.findIdx? {vs : List Value} (h : Unrepeated vs) {i : Nat} {v : Value}
    (hi : vs[i]? = some v) :
    (vs.findIdx? fun u => u.strictEq v) = if v.strictEq v then some i else none := by
  obtain ⟨hlt, rfl⟩ := List.getElem?_eq_some_iff.1 hi
  have hfirst : ∀ j, ∀ hj : j < vs.length, j < i → (vs[j].strictEq vs[i]) = false := fun j hj hji =>
    List.pairwise_iff_getElem.1 h j i hj hlt hji
  have hlater : ∀ j, ∀ hj : j < vs.length, i < j → (vs[j].strictEq vs[i]) = false := fun j hj hij =>
    (strictEq_comm _ _).trans (List.pairwise_iff_getElem.1 h i j hlt hj hij)
  split
  · next hself =>
    rw [List.findIdx?_eq_some_iff_getElem]
    refine ⟨hlt, hself, fun j hj => ?_⟩
    simpa using hfirst j (hj.trans hlt) hj
  · next hself =>
    rw [List.findIdx?_eq_none_iff]
    intro u hu
    obtain ⟨j, hj, rfl⟩ := List.getElem_of_mem hu
    rcases lt_trichotomy j i with hji | rfl | hij
    · exact hfirst j hj hji
    · simpa using hself
    · exact hlater j hj hij

end Value

open Value (Unrepeated distinct)

/-! ## What steps change -/

namespace Ordinal

/-- What a step may do to an ordinal scale. Applying it adds a value that is not in the domain, unless a
result for unknown values is set. -/
inductive Change (s : Ordinal) : Ordinal → Prop where
  | none : Change s s
  | domain (vs : List Value) : Change s { s with domain := distinct vs }
  | range (vs : List Value) : Change s { s with range := vs }
  | unknown (v : Value) : Change s { s with unknown := some v }
  | add (v : Value) (hunknown : s.unknown = .none) (hnew : (s.domain.any fun d => d.strictEq v) = false) :
    Change s { s with domain := s.domain ++ [v] }

theorem change_of_call {s t : Ordinal} {m : ScaleMethod} {args : List Value} {v : Value}
    (h : s.call m args = .ok (t, v)) : s.Change t := by
  cases m <;> cases args <;> cases h
  all_goals first | exact .none | exact .domain _ | exact .range _ | exact .unknown _

theorem change_of_apply (s : Ordinal) (v : Value) : s.Change (s.apply v).1 := by
  unfold apply
  cases hfind : s.domain.findIdx? fun d => d.strictEq v with
  | some i => exact .none
  | none =>
    cases hunknown : s.unknown with
    | some u => exact .none
    | none =>
      have hnew : (s.domain.any fun d => d.strictEq v) = false := by
        rw [List.any_eq_false]
        simpa using List.findIdx?_eq_none_iff.1 hfind
      simpa only [hunknown] using Change.add v hunknown hnew

end Ordinal

namespace Band

/-- What a step may do to a band or point scale: nothing, or the layout is computed for new settings. -/
inductive Change (b : Band) : Band → Prop where
  | none : Change b b
  | set (s : BandSettings) (hs : s.domain = b.settings.domain ∨ ∃ vs, s.domain = distinct vs) :
    Change b (ofSettings s)

theorem domain_withRange (s : BandSettings) (v : Value) : (withRange s v).domain = s.domain := by
  unfold withRange
  split <;> rfl

theorem change_of_call {b t : Band} {m : ScaleMethod} {args : List Value} {v : Value}
    (h : b.call m args = .ok (t, v)) : b.Change t := by
  obtain ⟨⟨point, domain, start, stop, inner, outer, align, rounds⟩, layout⟩ := b
  cases m <;> cases args <;> cases point <;> cases h
  all_goals first
    | exact .none
    | exact .set _ (.inl rfl)
    | exact .set _ (.inr ⟨_, rfl⟩)
    | exact .set _ (.inl (domain_withRange _ _))

end Band

namespace Quantize

/-- What a step may do to a quantize scale: nothing, another result for what is not a number, or the
thresholds are computed for new settings. -/
inductive Change (s : Quantize) : Quantize → Prop where
  | none : Change s s
  | unknown (v : Value) : Change s { s with unknown := v }
  | set (t : Quantize) : Change s t.rescale

theorem change_of_nice (s : Quantize) (count : Float) : s.Change (s.nice count) := by
  unfold nice
  split
  · exact .set _
  · exact .none

theorem change_of_call {s t : Quantize} {m : ScaleMethod} {args : List Value} {v : Value}
    (h : s.call m args = .ok (t, v)) : s.Change t := by
  by_cases hnice : m = .nice
  · subst hnice
    rw [call_nice] at h
    obtain ⟨count, -, h⟩ := exists_of_bind_eq_ok h
    cases h
    exact s.change_of_nice count
  by_cases hticks : m = .ticks
  · subst hticks
    rw [call_ticks] at h
    obtain ⟨count, -, h⟩ := exists_of_bind_eq_ok h
    cases h
    exact .none
  · cases m <;> first | contradiction | (cases args <;> cases h)
    all_goals first | exact .none | exact .set _ | exact .unknown _

end Quantize

/-! ## Steps -/

namespace Scale

/-- What a step may do to a scale. It stays one of its kind. -/
inductive Follows : Scale → Scale → Prop where
  | continuous (s t : Continuous) : Follows (.continuous s) (.continuous t)
  | sequential (s t : Sequential) : Follows (.sequential s) (.sequential t)
  | quantize {s t : Quantize} (h : s.Change t) : Follows (.quantize s) (.quantize t)
  | threshold (s t : Threshold) : Follows (.threshold s) (.threshold t)
  | band {s t : Band} (h : s.Change t) : Follows (.band s) (.band t)
  | ordinal {s t : Ordinal} (h : s.Change t) : Follows (.ordinal s) (.ordinal t)

theorem Follows.refl (s : Scale) : s.Follows s := by
  cases s with
  | continuous s => exact .continuous s s
  | sequential s => exact .sequential s s
  | quantize s => exact .quantize .none
  | threshold s => exact .threshold s s
  | band s => exact .band .none
  | ordinal s => exact .ordinal .none

theorem exists_of_part {α : Type} {x : Checked ScaleError (α × Value)} {wrap : α → Scale} {t : Scale}
    {v : Value} (h : (x >>= fun a => pure (wrap a.1, a.2)).run = .ok (.ok (t, v))) :
    ∃ a, x.run = .ok (.ok (a, v)) ∧ t = wrap a := by
  match x, h with
  | .error f, h => cases h
  | .ok (.error e), h => cases h
  | .ok (.ok (a, w)), h =>
    cases h
    exact ⟨a, rfl, rfl⟩

theorem eq_ok_of_liftError {ε α : Type} {x : Except ε α} {a : α}
    (h : (liftM x : Checked ε α).run = .ok (.ok a)) : x = .ok a := by
  cases x <;> cases h
  rfl

theorem follows_of_call {s t : Scale} {m : ScaleMethod} {args : List Value} {v : Value}
    (h : (s.call m args).run = .ok (.ok (t, v))) : s.Follows t := by
  cases s with
  | continuous s =>
    obtain ⟨t, -, rfl⟩ := exists_of_part (x := s.call m args) h
    exact .continuous s t
  | sequential s =>
    obtain ⟨t, -, rfl⟩ := exists_of_part (x := liftM (s.call m args)) h
    exact .sequential s t
  | quantize s =>
    obtain ⟨t, ht, rfl⟩ := exists_of_part (x := liftM (s.call m args)) h
    exact .quantize (Quantize.change_of_call (eq_ok_of_liftError ht))
  | threshold s =>
    obtain ⟨t, -, rfl⟩ := exists_of_part (x := liftM (s.call m args)) h
    exact .threshold s t
  | band s =>
    obtain ⟨t, ht, rfl⟩ := exists_of_part (x := liftM (s.call m args)) h
    exact .band (Band.change_of_call (eq_ok_of_liftError ht))
  | ordinal s =>
    obtain ⟨t, ht, rfl⟩ := exists_of_part (x := liftM (s.call m args)) h
    exact .ordinal (Ordinal.change_of_call (eq_ok_of_liftError ht))

theorem follows_of_apply {s t : Scale} {v y : Value} (h : s.apply v = .ok (t, y)) : s.Follows t := by
  cases s with
  | continuous s =>
    obtain ⟨_, -, h⟩ := exists_of_map_eq_ok h
    cases h
    exact .refl _
  | ordinal s =>
    cases h
    exact .ordinal (s.change_of_apply v)
  | _ =>
    cases h
    exact .refl _

/-- **A step** does to a scale what is in the list. -/
theorem follows_of_advance {s t : Scale} {step : ScaleStep} (h : s.advance step = .ok t) : s.Follows t := by
  cases step with
  | apply v =>
    obtain ⟨⟨t, y⟩, happly, rfl⟩ := exists_of_map_eq_ok h
    exact follows_of_apply happly
  | call m args =>
    obtain ⟨r, hr, rfl⟩ := exists_of_map_eq_ok h
    cases r with
    | error e => exact .refl s
    | ok r => exact follows_of_call hr

/-! ## Runs -/

theorem follows_configure (s : Scale) (m : ScaleMethod) (v : Value) : s.Follows (s.configure m v) := by
  unfold configure
  split
  · next h => exact follows_of_call h
  · exact .refl s

section

variable {P : Scale → Prop} {kind : ScaleKind}

theorem make_induction (hdefault : P (default kind)) (hstep : ∀ s t, P s → s.Follows t → P t)
    (args : List Value) : P (make kind args) := by
  unfold make
  split
  · exact hdefault
  · exact hstep _ _ hdefault (follows_configure _ _ _)
  · exact hstep _ _ (hstep _ _ hdefault (follows_configure _ _ _)) (follows_configure _ _ _)

/-- **Runs keep** what steps keep. -/
theorem run_induction (hdefault : P (default kind)) (hstep : ∀ s t, P s → s.Follows t → P t)
    {args : List Value} {steps : List ScaleStep} {t : Scale} (h : run kind args steps = .ok t) : P t := by
  have hmake := make_induction hdefault hstep args
  unfold run at h
  generalize make kind args = s at hmake h
  induction steps generalizing s with
  | nil =>
    cases h
    exact hmake
  | cons step steps ih =>
    rw [List.foldlM_cons] at h
    obtain ⟨s', hs', h⟩ := exists_of_bind_eq_ok h
    exact ih s' (hstep _ _ hmake (follows_of_advance hs')) h

end

/-! ## Sound scales -/

/-- What is computed from other settings is what they give, and no entry of a discrete domain equals a
later one. -/
def Sound : Scale → Prop
  | quantize s => s.rescale = s
  | band s => s.rescale = s ∧ Unrepeated s.settings.domain
  | ordinal s => Unrepeated s.domain
  | _ => True

theorem sound_default (kind : ScaleKind) : (default kind).Sound := by
  cases kind with
  | quantize => rfl
  | band | point => exact ⟨rfl, .nil⟩
  | ordinal => exact .nil
  | _ => trivial

theorem Sound.follows {s t : Scale} (hs : s.Sound) (h : s.Follows t) : t.Sound := by
  cases h with
  | continuous | sequential | threshold => trivial
  | quantize h =>
    cases h with
    | none => exact hs
    | unknown v => exact congrArg (fun s : Quantize => { s with unknown := v }) hs
    | set t => rfl
  | band h =>
    cases h with
    | none => exact hs
    | set s hdomain =>
      refine ⟨rfl, ?_⟩
      rcases hdomain with hdomain | ⟨vs, hdomain⟩
      · exact hdomain ▸ hs.2
      · exact hdomain ▸ Value.unrepeated_distinct vs
  | ordinal h =>
    cases h with
    | none | range | unknown => exact hs
    | domain vs => exact Value.unrepeated_distinct vs
    | add v _ hnew => exact Value.unrepeated_concat_iff.2 ⟨hs, hnew⟩

/-- **Every run** leads to a sound scale. -/
theorem sound_run {kind : ScaleKind} {args : List Value} {steps : List ScaleStep} {s : Scale}
    (h : run kind args steps = .ok s) : s.Sound :=
  run_induction (sound_default kind) (fun _ _ hs h => hs.follows h) h

theorem run_eq_error_iff (kind : ScaleKind) (args : List Value) (steps : List ScaleStep) (f : Fault) :
    run kind args steps = .error f ↔
      ∃ done step rest s, steps = done ++ step :: rest ∧ run kind args done = .ok s ∧ s.CutOff step f := by
  unfold run
  simp only [foldlM_eq_error_iff, advance_eq_error_iff]

/-- **Scales other than continuous ones** come to the end of every run, and are of their kind there. `wrap`
makes the scales of a kind of their settings. -/
theorem exists_run {α : Type} (wrap : α → Scale) {kind : ScaleKind}
    (hdefault : ∃ a, default kind = wrap a)
    (hstep : ∀ a t, (wrap a).Follows t → ∃ b, t = wrap b) (hkind : ∀ a c, wrap a ≠ .continuous c)
    (args : List Value) (steps : List ScaleStep) :
    ∃ a, run kind args steps = .ok (wrap a) ∧ (wrap a).Sound := by
  have hkeep (s t : Scale) (hs : ∃ a, s = wrap a) (h : s.Follows t) : ∃ a, t = wrap a := by
    obtain ⟨a, rfl⟩ := hs
    exact hstep a t h
  cases hrun : run kind args steps with
  | ok t =>
    obtain ⟨a, rfl⟩ := run_induction hdefault hkeep hrun
    exact ⟨a, rfl, sound_run hrun⟩
  | error f =>
    -- the scale at the step that cuts the run off would be a continuous one
    obtain ⟨done, step, rest, s, -, hdone, hstop⟩ := (run_eq_error_iff kind args steps f).1 hrun
    obtain ⟨a, rfl⟩ := run_induction hdefault hkeep hdone
    generalize hs : wrap a = s at hstop
    cases hstop <;> exact absurd hs (hkind a _)

end Scale

end ChartTemplate
