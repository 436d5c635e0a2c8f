import ChartTemplate.Proofs.Scale.Steps
import ChartTemplate.Proofs.Ticks.Range

/-!
# Domains of time scales

A time scale keeps its domain as milliseconds. Those that are set are read from values, which gives the
milliseconds of an instant or NaN (`Continuous.hasDates_setDomain`), and those that `nice` makes are found by
searches that stay among the dates (`TimeInterval.search_dated`). So every entry is that of an instant, or
NaN, on every scale that a run leads to (`Scale.hasDates_run`).
-/

namespace ChartTemplate

open Instant (InDates atMillis)

variable {x y : Float}

/-- The milliseconds of an instant, or NaN. -/
def Dated (x : Float) : Prop :=
  x.isNaN = true ∨ ∃ ms, InDates ms ∧ x = Float.ofInt ms

namespace TimeInterval

variable {i : TimeInterval}

theorem search_dated (hstep : 1 ≤ i.step) {direction n : ℤ} (hdirection : direction = 1 ∨ direction = -1)
    (hn : InDates (i.unit.start n)) :
    Dated (i.search direction i.searchBound (atMillis (i.unit.start n))).toFloat := by
  have hkept : ∃ k ≤ i.searchBound, i.Kept (n + direction * (k : ℕ)) := by
    rcases hdirection with rfl | rfl
    · exact exists_kept_above hstep n
    · exact exists_kept_below hstep n
  obtain ⟨k, hk, hstops⟩ := exists_stops hn hkept
  rw [(search_of_stops hstops hk).1, Instant.toFloat_atMillis]
  exact .inr ⟨_, hstops.dates k le_rfl, rfl⟩

theorem instantOf?_of_dated (hx : Dated x) : ∃ ms, InDates ms ∧ instantOf? x = some (atMillis ms) := by
  rcases hx with hnan | ⟨ms, hms, rfl⟩
  · have hzero : toInt64Clamped x = 0 := by
      unfold toInt64Clamped clampInt
      exact if_pos hnan
    refine ⟨0, by decide, ?_⟩
    rw [instantOf?, hzero]
    exact Instant.ofMillis?_of_inDates (by decide)
  · exact ⟨ms, hms, instantOf?_ofInt hms⟩

theorem inDates_of_instantOf? {ms : ℤ} (hms : InDates ms) (hx : instantOf? x = some (atMillis ms))
    (hbefore : ¬ (i.unit = .week ∧ BeforeSundays x)) : InDates (i.unit.start (i.unit.index ms)) := by
  rw [TimeUnit.inDates_start_iff hms]
  rintro ⟨hweek, hday⟩
  exact hbefore ⟨hweek, _, hx, by rwa [Instant.dayNumber_atMillis]⟩

theorem floor_dated (hstep : 1 ≤ i.step) (hx : Dated x) (h : i.floor x = .ok y) : Dated y := by
  have hzero : i.step ≠ 0 := by omega
  obtain ⟨ms, hms, hinstant⟩ := instantOf?_of_dated hx
  have hs : InDates (i.unit.start (i.unit.index ms)) := by
    refine inDates_of_instantOf? hms hinstant fun ⟨hweek, hbefore⟩ => ?_
    cases h.symm.trans ((floor_eq_error_iff hzero x).2 ⟨hweek, hbefore, rfl⟩)
  unfold floor at h
  rw [hinstant] at h
  dsimp only at h
  rw [floorUnit_atMillis hms hs] at h
  change (if i.step = 0 then _ else _) = _ at h
  rw [if_neg hzero] at h
  cases h
  exact search_dated hstep (.inr rfl) hs

theorem ceil_dated (hstep : 1 ≤ i.step) (hx : Dated x) (h : i.ceil x = .ok y) : Dated y := by
  have hzero : i.step ≠ 0 := by omega
  obtain ⟨ms, hms, hinstant⟩ := instantOf?_of_dated hx
  have hs : InDates (i.unit.start (i.unit.index ms)) := by
    refine inDates_of_instantOf? hms hinstant fun ⟨hweek, hbefore⟩ => ?_
    cases h.symm.trans ((ceil_eq_error_iff hzero x).2 ⟨hweek, hbefore, rfl⟩)
  unfold ceil at h
  rw [hinstant] at h
  dsimp only at h
  rw [floorUnit_atMillis hms hs] at h
  change (if i.step = 0 then _ else _) = _ at h
  rw [if_neg hzero] at h
  -- the search starts at the unit or at the next one
  have hfirst : ∃ n, InDates (i.unit.start n) ∧ (if (atMillis (i.unit.start (i.unit.index ms))).toFloat < x then
      (offsetUnit? i.unit (atMillis (i.unit.start (i.unit.index ms))) 1).getD
        (atMillis (i.unit.start (i.unit.index ms)))
      else atMillis (i.unit.start (i.unit.index ms))) = atMillis (i.unit.start n) := by
    rw [offsetUnit?_start, Instant.ofMillis?_eq]
    by_cases hnext : InDates (i.unit.start (i.unit.index ms + 1))
    · rw [if_pos hnext]
      split
      · exact ⟨_, hnext, rfl⟩
      · exact ⟨_, hs, rfl⟩
    · rw [if_neg hnext]
      exact ⟨_, hs, by split <;> rfl⟩
  obtain ⟨n, hn, hstart⟩ := hfirst
  cases h
  rw [hstart]
  exact search_dated hstep (.inl rfl) hn

end TimeInterval

/-! ## Continuous scales -/

/-- No item of the value is an instant out of the range of dates. -/
def Value.ItemsDated (v : Value) : Prop :=
  ∀ u ∈ v.items?.getD [], ∀ t, u.toInstant? = some t → InDates t.millis

namespace Continuous

variable {c d : Continuous} {m : ScaleMethod} {args : List Value} {v : Value}

/-- The domain of a time scale holds instants. -/
def HasDates (c : Continuous) : Prop :=
  c.transform = .time → ∀ x ∈ c.domain, Dated x

theorem hasDates_setDomain (hv : v.ItemsDated) (c : Continuous) : (c.setDomain v).HasDates := by
  intro htime x hx
  obtain ⟨u, hu, rfl⟩ := List.mem_map.1 hx
  have htime : c.transform = .time := htime
  have hinput : c.input u = (u.toInstant?.map Instant.toFloat).getD notANumber := by simp only [input, htime]
  rw [hinput]
  cases hinstant : u.toInstant? with
  | none => exact .inl (by decide)
  | some t => exact .inr ⟨_, hv u hu t hinstant, rfl⟩

theorem mem_setEnds {xs : List Float} {descending : Bool} {low high : Float}
    (hx : x ∈ setEnds xs descending low high) : x ∈ xs ∨ x = low ∨ x = high := by
  unfold setEnds at hx
  dsimp only at hx
  split at hx
  · rcases List.mem_or_eq_of_mem_set hx with hx | rfl
    · exact (List.mem_or_eq_of_mem_set hx).imp_right .inl
    · exact .inr (.inr rfl)
  · rcases List.mem_or_eq_of_mem_set hx with hx | rfl
    · exact (List.mem_or_eq_of_mem_set hx).imp_right .inl
    · exact .inr (.inr rfl)

theorem dated_niceWith {xs ys : List Float} {down up : Float → Except Fault Float}
    (hdown : ∀ x y, Dated x → down x = .ok y → Dated y) (hup : ∀ x y, Dated x → up x = .ok y → Dated y)
    (hxs : ∀ x ∈ xs, Dated x) (h : niceWith xs down up = .ok ys) : ∀ y ∈ ys, Dated y := by
  match xs, h with
  | [], h | [_], h =>
    cases h
    exact hxs
  | x :: x' :: rest, h =>
    have hfirst : Dated x := hxs x List.mem_cons_self
    have hlast : Dated ((x' :: rest).getLastD x') := by
      rw [List.getLastD_cons]
      exact hxs _ (List.mem_cons_of_mem _ List.getLastD_mem_cons)
    have hends (descending : Bool) {low high : Float} (hlow : Dated low) (hhigh : Dated high) :
        ∀ y ∈ setEnds (x :: x' :: rest) descending low high, Dated y := by
      intro y hy
      rcases mem_setEnds hy with hy | rfl | rfl
      · exact hxs y hy
      · exact hlow
      · exact hhigh
    unfold niceWith at h
    dsimp only at h
    split at h <;>
    · obtain ⟨low, hlow, h⟩ := exists_of_bind_eq_ok h
      obtain ⟨high, hhigh, h⟩ := exists_of_bind_eq_ok h
      cases h
      refine hends _ (hdown _ _ ?_ hlow) (hup _ _ ?_ hhigh) <;> assumption

theorem HasDates.nice (hc : c.HasDates) {count : Float} (h : c.nice count = .ok d) : d.HasDates := by
  unfold Continuous.nice at h
  cases htransform : c.transform with
  | time =>
    rw [htransform] at h
    dsimp only at h
    cases hends : endsOf? c.domain with
    | none =>
      rw [hends] at h
      cases h
      exact hc
    | some ends =>
      rw [hends] at h
      obtain ⟨ys, hys, h⟩ := exists_of_bind_eq_ok h
      cases h
      intro _
      have hstep := TimeInterval.one_le_forSpan_step (minNumber ends.1 ends.2) (maxNumber ends.1 ends.2) count
      exact dated_niceWith (fun x y => TimeInterval.floor_dated hstep) (fun x y => TimeInterval.ceil_dated hstep)
        (hc htransform) hys
  | log base =>
    rw [htransform] at h
    obtain ⟨ys, -, h⟩ := exists_of_bind_eq_ok h
    cases h
    exact nofun
  | _ =>
    rw [htransform] at h
    cases h
    exact nofun

theorem HasDates.call (hc : c.HasDates) (hargs : ∀ v ∈ args, v.ItemsDated)
    (h : (c.call m args).run = .ok (.ok (d, v))) : d.HasDates := by
  cases m with
  | nice =>
    rw [call_nice] at h
    obtain ⟨count, -, h⟩ := Checked.exists_of_liftError_bind h
    obtain ⟨t, hnice, h⟩ := Checked.exists_of_lift_bind h
    cases h
    exact hc.nice hnice
  | ticks =>
    rw [call_ticks] at h
    obtain ⟨count, -, h⟩ := Checked.exists_of_liftError_bind h
    obtain ⟨xs, -, h⟩ := Checked.exists_of_lift_bind h
    cases h
    exact hc
  | invert =>
    cases args with
    | nil => cases h
    | cons w args =>
      obtain ⟨x, -, h⟩ := Checked.exists_of_lift_bind (x := c.invert w.toNumber) h
      cases h
      exact hc
  | domain =>
    cases args with
    | nil => cases h; exact hc
    | cons w args =>
      cases h
      exact hasDates_setDomain (hargs w List.mem_cons_self) c
  | base | exponent =>
    obtain ⟨transform, domain, range, clamp, rounds, unknown⟩ := c
    cases args <;> cases transform <;> cases h <;> first | exact hc | exact nofun
  | _ => cases args <;> cases h <;> exact hc

end Continuous

/-! ## Steps and runs -/

/-- No step sets an instant out of the range of dates. -/
def ScaleStep.Dated : ScaleStep → Prop
  | .apply _ => True
  | .call _ args => ∀ v ∈ args, v.ItemsDated

namespace Scale

variable {s t : Scale} {args : List Value}

/-- The domain of a time scale holds instants. -/
def HasDates (s : Scale) : Prop :=
  ∀ c, s = continuous c → c.HasDates

theorem HasDates.call (hs : s.HasDates) {m : ScaleMethod} {v : Value} (hargs : ∀ v ∈ args, v.ItemsDated)
    (h : (s.call m args).run = .ok (.ok (t, v))) : t.HasDates := by
  rintro d rfl
  cases s with
  | continuous c =>
    obtain ⟨d', hd, heq⟩ := exists_of_part (x := c.call m args) h
    cases heq
    exact (hs c rfl).call hargs hd
  | _ => cases follows_of_call h

/-- **A step** keeps the dates of a time scale. -/
theorem HasDates.advance (hs : s.HasDates) {step : ScaleStep} (hstep : step.Dated) (h : s.advance step = .ok t) :
    t.HasDates := by
  cases step with
  | apply v =>
    obtain ⟨⟨t', y⟩, happly, rfl⟩ := exists_of_map_eq_ok h
    cases s with
    | continuous c =>
      obtain ⟨_, -, h⟩ := exists_of_map_eq_ok happly
      cases h
      exact hs
    | _ => cases happly; exact nofun
  | call m args =>
    obtain ⟨r, hr, rfl⟩ := exists_of_map_eq_ok h
    cases r with
    | error e => exact hs
    | ok r => exact hs.call hstep hr

theorem HasDates.configure (hs : s.HasDates) (m : ScaleMethod) {v : Value} (hv : v.ItemsDated) :
    (s.configure m v).HasDates := by
  unfold Scale.configure
  split
  · next h => exact hs.call (by simpa using hv) h
  · exact hs

theorem hasDates_default (kind : ScaleKind) : (default kind).HasDates := by
  cases kind with
  | time =>
    intro c hc _
    cases hc
    simp only [Continuous.ofTransform, List.forall_mem_cons]
    exact ⟨.inr ⟨946684800000, by decide, by decide +kernel⟩,
      .inr ⟨946771200000, by decide, by decide +kernel⟩, nofun⟩
  | _ =>
    intro c hc htime
    cases hc
    all_goals cases htime

theorem hasDates_make {kind : ScaleKind} (hargs : ∀ v ∈ args, v.ItemsDated) : (make kind args).HasDates := by
  unfold make
  have hdefault := hasDates_default kind
  split
  · exact hdefault
  · exact hdefault.configure _ (hargs _ List.mem_cons_self)
  · exact (hdefault.configure _ (hargs _ List.mem_cons_self)).configure _ (hargs _ (by simp))

/-- **Every run** leads to a time scale with dates. -/
theorem hasDates_run {kind : ScaleKind} {steps : List ScaleStep} (hargs : ∀ v ∈ args, v.ItemsDated)
    (hsteps : ∀ step ∈ steps, step.Dated) (h : run kind args steps = .ok t) : t.HasDates := by
  have hmake : (make kind args).HasDates := hasDates_make hargs
  unfold run at h
  generalize make kind args = s at hmake h
  induction steps generalizing s with
  | nil =>
    cases h
    exact hmake
  | cons step steps ih =>
    rw [List.foldlM_cons] at h
    obtain ⟨s', hs', h⟩ := exists_of_bind_eq_ok h
    obtain ⟨hstep, hsteps⟩ := List.forall_mem_cons.1 hsteps
    exact ih hsteps s' (hmake.advance hstep hs') h

end Scale

end ChartTemplate
