import Mathlib
import ChartTemplate.Proofs.InPlace.Work
import ChartTemplate.Proofs.Numeric.Order
import ChartTemplate.Proofs.Time.Calendar
import ChartTemplate.Scale.Kind
import ChartTemplate.Ticks.Time

/-!
# Weeks without a date

Boundaries of weeks are found from the Sunday at or before an instant. In the first days that dates may
have, which come before the first Sunday, there is no such date, and the search is cut off. It is cut off
nowhere else: the other units start at dates, and every interval has a step.
-/

namespace ChartTemplate

variable {f : Fault}

def firstSunday : Date := ⟨minYear, 1, 4⟩

example : firstSunday.weekday = 0 := by decide

/-- The number stands for an instant before the first Sunday. -/
def BeforeSundays (ms : Float) : Prop :=
  ∃ t, instantOf? ms = some t ∧ t.dayNumber < firstSunday.toDays

theorem Instant.ofSeconds?_eq_none_iff (seconds : ℤ) (nanos : ℕ) :
    ofSeconds? seconds nanos = none ↔
      ¬ ((Date.mk minYear 1 1).toDays ≤ seconds / 86400 ∧
        seconds / 86400 ≤ (Date.mk maxYear 12 31).toDays) := by
  unfold ofSeconds?
  dsimp only
  split <;> simp [*]

theorem dayNumber_mem {ms : Float} {t : Instant} (h : instantOf? ms = some t) :
    (Date.mk minYear 1 1).toDays ≤ t.dayNumber ∧ t.dayNumber ≤ (Date.mk maxYear 12 31).toDays := by
  unfold instantOf? Instant.ofMillis? Instant.ofSeconds? at h
  dsimp only at h
  split at h <;> cases h
  assumption

namespace TimeInterval

/-- The Sunday at or before a day that a date may have is before all of them only for the first days. -/
theorem shift?_week_eq_none_iff {t : Instant} (hmin : (Date.mk minYear 1 1).toDays ≤ t.dayNumber)
    (hmax : t.dayNumber ≤ (Date.mk maxYear 12 31).toDays) :
    shift? (.midnight t.date) (-86400 * t.date.weekday) = none ↔
      t.dayNumber < firstSunday.toDays := by
  have hday : t.date.toDays = t.dayNumber := Date.toDays_ofDays _
  have hweekday : (t.date.weekday : ℤ) = (t.dayNumber + 4) % 7 := by
    rw [Date.weekday, hday, Date.weekdayOfDays, Int.toNat_of_nonneg (Int.emod_nonneg _ (by decide))]
  -- the first day that dates may have is a Thursday, three days before the first Sunday
  have hfirst : (Date.mk minYear 1 1).toDays = -96465292 := by decide
  have hsunday : firstSunday.toDays = -96465289 := by decide
  rw [shift?, Instant.ofSeconds?_eq_none_iff, Instant.midnight, hday, hweekday, hsunday]
  rw [hfirst] at hmin ⊢
  dsimp only
  omega

theorem floorUnit_eq_error_iff {t : Instant} (hmin : (Date.mk minYear 1 1).toDays ≤ t.dayNumber)
    (hmax : t.dayNumber ≤ (Date.mk maxYear 12 31).toDays) (u : TimeUnit) :
    floorUnit u t = .error f ↔ u = .week ∧ t.dayNumber < firstSunday.toDays ∧ f = .dateRange := by
  cases u with
  | week =>
    have hmidnight : midnight? t.date.year t.date.month t.date.day = some (.midnight t.date) := by
      unfold midnight? Instant.date
      rw [Date.ofParts?_ofDays hmin hmax]
      rfl
    rw [← shift?_week_eq_none_iff hmin hmax]
    unfold floorUnit
    dsimp only
    rw [hmidnight]
    dsimp only
    cases shift? (.midnight t.date) (-86400 * t.date.weekday) with
    | none => exact ⟨fun h => ⟨rfl, rfl, by cases h; rfl⟩, fun h => by rw [h.2.2]; rfl⟩
    | some t =>
      constructor
      · intro h
        cases h
      · rintro ⟨-, h, -⟩
        cases h
  | _ =>
    constructor
    · intro h
      cases h
    · rintro ⟨h, -⟩
      cases h

variable {i : TimeInterval}

theorem at_floorUnit_eq_error_iff {α : Type} {a : α} {g : Instant → Except Fault α}
    (hg : ∀ t, ∃ b, g t = .ok b) (u : TimeUnit) (ms : Float) :
    (match instantOf? ms with
      | none => pure a
      | some t => do
        match ← floorUnit u t with
        | none => pure a
        | some t => g t) = .error f ↔ u = .week ∧ BeforeSundays ms ∧ f = .dateRange := by
  cases ht : instantOf? ms with
  | none =>
    constructor
    · intro h
      cases h
    · rintro ⟨-, ⟨t, h, -⟩, -⟩
      rw [ht] at h
      cases h
  | some t =>
    obtain ⟨hmin, hmax⟩ := dayNumber_mem ht
    have hbefore : BeforeSundays ms ↔ t.dayNumber < firstSunday.toDays := by
      unfold BeforeSundays
      rw [ht]
      simp only [Option.some.injEq, exists_eq_left']
    dsimp only
    rw [hbefore, bind_eq_error_iff, ← floorUnit_eq_error_iff hmin hmax]
    refine or_iff_left ?_
    rintro ⟨start, -, h⟩
    cases start with
    | none => cases h
    | some t =>
      obtain ⟨b, hb⟩ := hg t
      have hstart : g t = .error f := h
      rw [hb] at hstart
      cases hstart

theorem floor_eq_error_iff (hstep : i.step ≠ 0) (ms : Float) :
    i.floor ms = .error f ↔ i.unit = .week ∧ BeforeSundays ms ∧ f = .dateRange := by
  refine at_floorUnit_eq_error_iff (fun t => ?_) i.unit ms
  rw [if_neg hstep]
  exact ⟨_, rfl⟩

theorem ceil_eq_error_iff (hstep : i.step ≠ 0) (ms : Float) :
    i.ceil ms = .error f ↔ i.unit = .week ∧ BeforeSundays ms ∧ f = .dateRange := by
  refine at_floorUnit_eq_error_iff (fun t => ?_) i.unit ms
  rw [if_neg hstep]
  exact ⟨_, rfl⟩

theorem range_eq_error_iff (hstep : i.step ≠ 0) (start stop : Float) :
    i.range start stop = .error f ↔ i.unit = .week ∧ BeforeSundays start ∧ f = .dateRange := by
  unfold range
  rw [bind_eq_error_iff, ceil_eq_error_iff hstep]
  refine or_iff_left ?_
  rintro ⟨first, -, h⟩
  cases ht : instantOf? first with
  | none =>
    rw [ht] at h
    cases h
  | some t =>
    rw [ht] at h
    dsimp only at h
    rw [if_neg hstep] at h
    cases h

theorem mem_of_nearest {target : Float} (ps : List (TimeInterval × Float))
    (h : nearest target ps = some i) : i ∈ ps.map Prod.fst := by
  induction ps with
  | nil => cases h
  | cons p ps ih =>
    cases ps with
    | nil => cases h
    | cons q ps =>
      rw [nearest] at h
      split at h
      · exact List.mem_cons_of_mem _ (ih h)
      · split at h <;> cases h <;> simp

theorem one_le_forSpan_step (start stop count : Float) : 1 ≤ (forSpan start stop count).step := by
  -- steps of years and of milliseconds are at least one, whatever the span is divided into
  have hsteps (x : Float) : 1 ≤ toInt64Clamped (maxNumber x.abs 1) := by
    obtain ⟨hnumber, hle⟩ := one_le_maxNumber_one x.abs
    exact one_le_clampInt hnumber hle (by decide)
  have htable : ∀ i ∈ tickIntervals.map Prod.fst, 1 ≤ i.step := by decide
  unfold forSpan
  dsimp only
  split
  · exact hsteps _
  · split
    · rename_i i hnearest
      exact htable i (mem_of_nearest _ hnearest)
    · exact hsteps _

theorem forSpan_step_ne_zero (start stop count : Float) : (forSpan start stop count).step ≠ 0 :=
  (zero_lt_one.trans_le (one_le_forSpan_step start stop count)).ne'

end TimeInterval

theorem timeTicks_eq_error_iff (start stop count : Float) :
    timeTicks start stop count = .error f ↔
      ∃ lo hi, (lo, hi) = (if stop < start then (stop, start) else (start, stop)) ∧
        (TimeInterval.forSpan lo hi count).unit = .week ∧ BeforeSundays lo ∧ f = .dateRange := by
  unfold timeTicks
  split
  · rw [map_eq_error_iff, TimeInterval.range_eq_error_iff (TimeInterval.forSpan_step_ne_zero _ _ _)]
    simp only [Prod.mk.injEq, and_assoc, exists_and_left, exists_eq_left]
  · rw [TimeInterval.range_eq_error_iff (TimeInterval.forSpan_step_ne_zero _ _ _)]
    simp only [Prod.mk.injEq, and_assoc, exists_and_left, exists_eq_left]

theorem niceWith_eq_error_iff {down up : Float → Except Fault Float} {P : Float → Prop} {fault : Fault}
    (hdown : ∀ x f, down x = .error f ↔ P x ∧ f = fault)
    (hup : ∀ x f, up x = .error f ↔ P x ∧ f = fault) (domain : List Float) :
    niceWith domain down up = .error f ↔
      2 ≤ domain.length ∧ (∃ ends ∈ endsOf? domain, P ends.1 ∨ P ends.2) ∧ f = fault := by
  have hboth (low high : Float) (g : Float → Float → List Float) :
      (do pure (g (← down low) (← up high)) : Except Fault (List Float)) = .error f ↔
        (P low ∨ P high) ∧ f = fault := by
    rw [bind_eq_error_iff, hdown, or_and_right]
    cases hlow : down low with
    | error f' =>
      obtain ⟨hP, -⟩ := (hdown low f').mp hlow
      simp [hP]
    | ok a =>
      simp only [Except.ok.injEq, exists_eq_left', bind_pure_eq_error_iff, hup]
  match domain with
  | [] => simp [niceWith, pure, Except.pure]
  | [x] => simp [niceWith, pure, Except.pure]
  | x :: y :: rest =>
    have hends : endsOf? (x :: y :: rest) = some (x, (y :: rest).getLastD y) := rfl
    generalize hlast : (y :: rest).getLastD y = last at hends
    have hnice : niceWith (x :: y :: rest) down up =
        if last < x then (do pure (setEnds (x :: y :: rest) true (← down last) (← up x)))
        else (do pure (setEnds (x :: y :: rest) false (← down x) (← up last))) := by
      simp only [niceWith, hlast]
      split <;> simp [*]
    have hlength : 2 ≤ (x :: y :: rest).length := by simp
    rw [hnice, hends]
    simp only [Option.mem_def, Option.some.injEq, exists_eq_left', hlength, true_and]
    by_cases hdescending : last < x
    · rw [if_pos hdescending, or_comm]
      exact hboth last x _
    · rw [if_neg hdescending]
      exact hboth x last _

end ChartTemplate
