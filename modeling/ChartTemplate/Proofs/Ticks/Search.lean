import ChartTemplate.Proofs.Ticks.Units

/-!
# Searching for a boundary

A search moves from unit to unit until the step keeps one, and is cut off where the next unit has no date.
It ends within `searchBound` units (`exists_stops`). So the last boundary before an instant and the first
one after it are found, if there are such boundaries (`floor_ceil`).
-/

namespace ChartTemplate

open Instant (InDates atMillis ofMillis?)

/-- The first unit that starts at an instant or after it. -/
def TimeUnit.indexFrom (u : TimeUnit) (ms : ℤ) : ℤ :=
  if u.start (u.index ms) < ms then u.index ms + 1 else u.index ms

theorem TimeUnit.le_start_iff (u : TimeUnit) (n ms : ℤ) : ms ≤ u.start n ↔ u.indexFrom ms ≤ n := by
  have hle := u.start_index_le ms
  have hlt := u.lt_start_index_succ ms
  unfold indexFrom
  split
  · rename_i hstart
    constructor
    · intro h
      have := u.strictMono_start.lt_iff_lt.1 (hstart.trans_le h)
      omega
    · intro h
      exact hlt.le.trans (u.strictMono_start.monotone h)
  · rename_i hstart
    have heq : u.start (u.index ms) = ms := le_antisymm hle (not_lt.1 hstart)
    rw [← u.strictMono_start.le_iff_le (a := u.index ms), heq]

namespace TimeInterval

variable {i : TimeInterval}

/-! ## Boundaries -/

/-- A unit starts at these milliseconds, and the step divides its number. -/
def IsBoundary (i : TimeInterval) (b : ℤ) : Prop :=
  ∃ t, ofMillis? b = some t ∧ floorUnit i.unit t = .ok (some t) ∧ i.step ∣ unitNumber i.unit t

/-- The step keeps the `n`th unit. -/
def Kept (i : TimeInterval) (n : ℤ) : Prop :=
  i.step ∣ i.unit.number n

theorem keeps_start_iff (n : ℤ) : i.keeps (atMillis (i.unit.start n)) = true ↔ i.Kept n := by
  rw [keeps, unitNumber_start, beq_iff_eq, Kept, Int.dvd_iff_tmod_eq_zero]

theorem keeps_start_eq_false_iff (n : ℤ) : i.keeps (atMillis (i.unit.start n)) = false ↔ ¬ i.Kept n := by
  rw [← keeps_start_iff, Bool.not_eq_true]

/-- Boundaries are the starts of the units that are kept. -/
theorem isBoundary_iff (b : ℤ) : i.IsBoundary b ↔ InDates b ∧ ∃ n, i.unit.start n = b ∧ i.Kept n := by
  unfold IsBoundary
  constructor
  · rintro ⟨t, ht, hfloor, hdvd⟩
    obtain ⟨hb, rfl⟩ := Instant.ofMillis?_eq_some_iff.1 ht
    have hs : InDates (i.unit.start (i.unit.index b)) := by
      rw [TimeUnit.inDates_start_iff hb]
      rintro ⟨hweek, hday⟩
      have hnumber := Instant.dayNumber_atMillis b
      have herror := (floorUnit_eq_error_iff (f := .dateRange) (t := atMillis b) (hnumber ▸ hb.1)
        (hnumber ▸ hb.2) i.unit).2 ⟨hweek, hnumber ▸ hday, rfl⟩
      cases herror.symm.trans hfloor
    rw [floorUnit_atMillis hb hs] at hfloor
    have hstart := Instant.atMillis_injective (Option.some.inj (Except.ok.inj hfloor))
    refine ⟨hb, _, hstart, ?_⟩
    rwa [← hstart, unitNumber_start] at hdvd
  · rintro ⟨hb, n, rfl, hkept⟩
    have hindex := i.unit.index_start n
    refine ⟨_, Instant.ofMillis?_of_inDates hb, ?_, ?_⟩
    · rw [floorUnit_atMillis hb (by rwa [hindex]), hindex]
    · rwa [unitNumber_start]

theorem number_day_monthStart (n : ℤ) : TimeUnit.day.number (Date.monthStart n) = 0 := by
  have hdate : Date.ofDays (Date.monthStart n) = Date.ofMonth n :=
    Date.ofDays_toDays (Date.valid_ofMonth n)
  simp only [TimeUnit.number, hdate, Date.ofMonth]
  rfl

/-- Among some units in a row the step keeps one: numbers among the units of a larger one come back to
zero, and of other numbers one in `step` is kept. -/
theorem exists_kept (hstep : 1 ≤ i.step) (n : ℤ) : ∃ m ≤ n, n ≤ m + i.searchBound ∧ i.Kept m := by
  have hzero {m : ℤ} (hm : i.unit.number m = 0) : i.Kept m := by
    unfold Kept
    rw [hm]
    exact dvd_zero _
  have hmod := Int.emod_nonneg n (show i.step ≠ 0 by omega)
  have hlt := Int.emod_lt_of_pos n (show 0 < i.step by omega)
  have hbound : i.step.natAbs + 60 = i.searchBound := rfl
  cases hunit : i.unit with
  | millisecond | week | year =>
    refine ⟨n - n % i.step, by omega, by omega, ?_⟩
    rw [Kept, hunit]
    exact Int.dvd_self_sub_emod
  | second | minute =>
    refine ⟨n - n % 60, by omega, by omega, hzero ?_⟩
    simp only [hunit, TimeUnit.number]
    omega
  | hour =>
    refine ⟨n - n % 24, by omega, by omega, hzero ?_⟩
    simp only [hunit, TimeUnit.number]
    omega
  | month =>
    refine ⟨n - n % 12, by omega, by omega, hzero ?_⟩
    simp only [hunit, TimeUnit.number]
    omega
  | day =>
    have hvalid := Date.valid_ofDays n
    have hfirst := Date.monthStart_monthIndex_le hvalid
    have hlast := Date.toDays_lt_monthStart_succ hvalid
    have hlength := Date.daysInMonth_le (Date.ofMonth (Date.ofDays n).monthIndex).year
      (Date.ofMonth (Date.ofDays n).monthIndex).month
    rw [Date.toDays_ofDays] at hfirst hlast
    rw [Date.monthStart_succ] at hlast
    exact ⟨_, hfirst, by omega, hzero (hunit ▸ number_day_monthStart _)⟩

theorem exists_kept_below (hstep : 1 ≤ i.step) (n : ℤ) :
    ∃ k ≤ i.searchBound, i.Kept (n + -1 * (k : ℕ)) := by
  obtain ⟨m, hle, hbound, hkept⟩ := exists_kept hstep n
  obtain ⟨k, hk⟩ : ∃ k : ℕ, m = n + -1 * k := ⟨(n - m).toNat, by omega⟩
  exact ⟨k, by omega, hk ▸ hkept⟩

theorem exists_kept_above (hstep : 1 ≤ i.step) (n : ℤ) :
    ∃ k ≤ i.searchBound, i.Kept (n + 1 * (k : ℕ)) := by
  obtain ⟨m, hle, hbound, hkept⟩ := exists_kept hstep (n + i.searchBound)
  obtain ⟨k, hk⟩ : ∃ k : ℕ, m = n + 1 * k := ⟨(m - n).toNat, by omega⟩
  exact ⟨k, by omega, hk ▸ hkept⟩

/-! ## The search -/

inductive Reaches (i : TimeInterval) (direction : ℤ) : Instant → Instant → Prop
  /-- The step keeps the unit. -/
  | kept {t : Instant} (h : i.keeps t = true) : Reaches i direction t t
  /-- The next unit has no date. -/
  | cutOff {t : Instant} (h : i.keeps t = false) (hnext : offsetUnit? i.unit t direction = none) :
      Reaches i direction t t
  /-- The search goes on with the next unit. -/
  | move {t next last : Instant} (h : i.keeps t = false)
      (hnext : offsetUnit? i.unit t direction = some next) (hrest : Reaches i direction next last) :
      Reaches i direction t last

/-- After `k` units, and not before, there is one that the step keeps, or the next one has no date. -/
structure Stops (i : TimeInterval) (direction n : ℤ) (k : ℕ) : Prop where
  dates : ∀ j ≤ k, InDates (i.unit.start (n + direction * j))
  passed : ∀ j < k, ¬ i.Kept (n + direction * j)
  stop : i.Kept (n + direction * k) ∨ ¬ InDates (i.unit.start (n + direction * (k + 1 : ℕ)))

theorem exists_stops {direction n : ℤ} {bound : ℕ} (hn : InDates (i.unit.start n))
    (hkept : ∃ k ≤ bound, i.Kept (n + direction * (k : ℕ))) : ∃ k ≤ bound, i.Stops direction n k := by
  classical
  let Last (k : ℕ) : Prop := i.Kept (n + direction * k) ∨ ¬ InDates (i.unit.start (n + direction * (k + 1 : ℕ)))
  obtain ⟨bound', hle, hbound⟩ := hkept
  have hlast : ∃ k, Last k := ⟨bound', .inl hbound⟩
  refine ⟨Nat.find hlast, (Nat.find_min' hlast (.inl hbound)).trans hle, ?_, ?_, Nat.find_spec hlast⟩
  · intro j hj
    cases j with
    | zero => simpa using hn
    | succ j =>
      have hbefore := Nat.find_min hlast (Nat.lt_of_succ_le hj)
      exact not_not.1 (not_or.1 hbefore).2
  · intro j hj
    exact (not_or.1 (Nat.find_min hlast hj)).1

theorem Stops.next {direction n : ℤ} {k : ℕ} (h : i.Stops direction n (k + 1)) :
    i.Stops direction (n + direction) k := by
  have hnext (j : ℕ) : n + direction + direction * j = n + direction * (j + 1 : ℕ) := by
    push_cast
    ring
  constructor
  · intro j hj
    rw [hnext]
    exact h.dates (j + 1) (by omega)
  · intro j hj
    rw [hnext]
    exact h.passed (j + 1) (by omega)
  · rw [hnext, hnext]
    exact h.stop

/-- **The search** ends at the first unit at which it stops, however much more it may look at. -/
theorem search_of_stops {direction n : ℤ} {k fuel : ℕ} (h : i.Stops direction n k) (hfuel : k ≤ fuel) :
    i.search direction fuel (atMillis (i.unit.start n)) = atMillis (i.unit.start (n + direction * k)) ∧
      i.Reaches direction (atMillis (i.unit.start n)) (atMillis (i.unit.start (n + direction * k))) := by
  induction k generalizing n fuel with
  | zero =>
    have hstop := h.stop
    simp only [Nat.cast_zero, mul_zero, add_zero, Nat.zero_add, Nat.cast_one, mul_one] at hstop ⊢
    by_cases hkept : i.Kept n
    · have hkeeps := (keeps_start_iff n).2 hkept
      refine ⟨?_, .kept hkeeps⟩
      cases fuel with
      | zero => rfl
      | succ fuel => rw [search, if_pos hkeeps]
    · have hkeeps := (keeps_start_eq_false_iff n).2 hkept
      have hnone : offsetUnit? i.unit (atMillis (i.unit.start n)) direction = none := by
        rw [offsetUnit?_start, Instant.ofMillis?_eq, if_neg (hstop.resolve_left hkept)]
      refine ⟨?_, .cutOff hkeeps hnone⟩
      cases fuel with
      | zero => rfl
      | succ fuel => rw [search, hkeeps, if_neg Bool.false_ne_true, hnone]
  | succ k ih =>
    have hkeeps : i.keeps (atMillis (i.unit.start n)) = false := by
      rw [keeps_start_eq_false_iff]
      simpa using h.passed 0 (Nat.succ_pos k)
    have hnext : offsetUnit? i.unit (atMillis (i.unit.start n)) direction =
        some (atMillis (i.unit.start (n + direction))) := by
      rw [offsetUnit?_start, Instant.ofMillis?_of_inDates]
      simpa using h.dates 1 (by omega)
    have hlast : n + direction * (k + 1 : ℕ) = n + direction + direction * k := by
      push_cast
      ring
    obtain ⟨fuel, rfl⟩ : ∃ fuel', fuel = fuel' + 1 := ⟨fuel - 1, by omega⟩
    obtain ⟨hsearch, hreaches⟩ := ih h.next (Nat.le_of_succ_le_succ hfuel)
    rw [hlast]
    refine ⟨?_, .move hkeeps hnext hreaches⟩
    rw [search, hkeeps, if_neg Bool.false_ne_true, hnext]
    exact hsearch

/-! ## Floor and ceiling -/

theorem floor_eq (hstep : 1 ≤ i.step) {ms : ℤ} (hms : InDates ms) (hs : InDates (i.unit.start (i.unit.index ms))) :
    i.floor (Float.ofInt ms) =
      .ok (i.search (-1) i.searchBound (atMillis (i.unit.start (i.unit.index ms)))).toFloat := by
  have hzero : i.step ≠ 0 := by omega
  unfold floor
  rw [instantOf?_ofInt hms]
  dsimp only
  rw [floorUnit_atMillis hms hs]
  show (if i.step = 0 then _ else _) = _
  rw [if_neg hzero]
  rfl

/-- Where the search for the first boundary starts: at the first unit that starts at the instant or after
it, or at the unit of the instant if the next one has no date. -/
def firstIndex (i : TimeInterval) (ms : ℤ) : ℤ :=
  if InDates (i.unit.start (i.unit.indexFrom ms)) then i.unit.indexFrom ms else i.unit.index ms

theorem start_firstIndex {ms : ℤ} (hs : InDates (i.unit.start (i.unit.index ms))) :
    (if i.unit.start (i.unit.index ms) < ms then
        (offsetUnit? i.unit (atMillis (i.unit.start (i.unit.index ms))) 1).getD
          (atMillis (i.unit.start (i.unit.index ms)))
      else atMillis (i.unit.start (i.unit.index ms))) = atMillis (i.unit.start (i.firstIndex ms)) := by
  unfold firstIndex TimeUnit.indexFrom
  by_cases hlt : i.unit.start (i.unit.index ms) < ms
  · rw [if_pos hlt, if_pos hlt, offsetUnit?_start, Instant.ofMillis?_eq]
    split <;> rfl
  · rw [if_neg hlt, if_neg hlt, if_pos hs]

theorem ceil_eq (hstep : 1 ≤ i.step) {ms : ℤ} (hms : InDates ms)
    (hs : InDates (i.unit.start (i.unit.index ms))) :
    i.ceil (Float.ofInt ms) =
      .ok (i.search 1 i.searchBound (atMillis (i.unit.start (i.firstIndex ms)))).toFloat := by
  have hzero : i.step ≠ 0 := by omega
  unfold ceil
  rw [instantOf?_ofInt hms]
  dsimp only
  rw [floorUnit_atMillis hms hs]
  show (if i.step = 0 then _ else _) = _
  rw [if_neg hzero]
  show Except.ok (Instant.toFloat (i.search 1 i.searchBound (if Instant.toFloat _ < _ then _ else _))) = _
  simp only [Instant.toFloat_atMillis, ofInt_lt_ofInt_iff hs.isSmall hms.isSmall]
  rw [start_firstIndex hs]

theorem Stops.kept_of_kept {direction n : ℤ} {k j : ℕ} (h : i.Stops direction n k)
    (hdirection : direction = 1 ∨ direction = -1) (hj : i.Kept (n + direction * j))
    (hdates : InDates (i.unit.start (n + direction * j))) : k ≤ j ∧ i.Kept (n + direction * k) := by
  have hle : k ≤ j := by
    by_contra hlt
    exact h.passed j (by omega) hj
  refine ⟨hle, ?_⟩
  by_cases hlast : j = k
  · rwa [← hlast]
  · -- the unit after the `k`th lies between two that have dates
    have hn : InDates (i.unit.start n) := by simpa using h.dates 0 (Nat.zero_le k)
    have hnext : InDates (i.unit.start (n + direction * (k + 1 : ℕ))) := by
      obtain rfl | rfl := hdirection
      · exact TimeUnit.inDates_start_between hn hdates (by omega) (by omega)
      · exact TimeUnit.inDates_start_between hdates hn (by omega) (by omega)
    exact h.stop.resolve_right fun hnone => hnone hnext

theorem Stops.kept_ahead {n m : ℤ} {k : ℕ} (h : i.Stops 1 n k) (hm : i.Kept m)
    (hdates : InDates (i.unit.start m)) (hle : n ≤ m) : i.Kept (n + 1 * k) ∧ n + 1 * k ≤ m := by
  have hj : n + 1 * ((m - n).toNat : ℕ) = m := by omega
  obtain ⟨hkj, hlast⟩ := h.kept_of_kept (.inl rfl) (hj.symm ▸ hm) (hj.symm ▸ hdates)
  exact ⟨hlast, by omega⟩

theorem Stops.kept_behind {n m : ℤ} {k : ℕ} (h : i.Stops (-1) n k) (hm : i.Kept m)
    (hdates : InDates (i.unit.start m)) (hle : m ≤ n) : i.Kept (n + -1 * k) ∧ m ≤ n + -1 * k := by
  have hj : n + -1 * ((n - m).toNat : ℕ) = m := by omega
  obtain ⟨hkj, hlast⟩ := h.kept_of_kept (.inr rfl) (hj.symm ▸ hm) (hj.symm ▸ hdates)
  exact ⟨hlast, by omega⟩

theorem floor_isGreatest (hstep : 1 ≤ i.step) {ms n : ℤ} (hms : InDates ms)
    (hs : InDates (i.unit.start (i.unit.index ms))) (hn : i.Kept n) (hdates : InDates (i.unit.start n))
    (hle : i.unit.start n ≤ ms) :
    ∃ lower, IsGreatest {b | i.IsBoundary b ∧ b ≤ ms} lower ∧
      i.floor (Float.ofInt ms) = .ok (Float.ofInt lower) ∧
      i.Reaches (-1) (atMillis (i.unit.start (i.unit.index ms))) (atMillis lower) := by
  obtain ⟨k, hk, hdown⟩ := exists_stops hs (exists_kept_below hstep (i.unit.index ms))
  obtain ⟨hsearch, hreaches⟩ := search_of_stops hdown hk
  have hlower := (hdown.kept_behind hn hdates ((i.unit.start_le_iff n ms).1 hle)).1
  refine ⟨_, ⟨⟨(isBoundary_iff _).2 ⟨hdown.dates k le_rfl, _, rfl, hlower⟩, ?_⟩, ?_⟩, ?_, hreaches⟩
  · rw [i.unit.start_le_iff]
    omega
  · rintro b ⟨hb, hle⟩
    obtain ⟨hdates, m, rfl, hkept⟩ := (isBoundary_iff _).1 hb
    have hm := (hdown.kept_behind hkept hdates ((i.unit.start_le_iff m ms).1 hle)).2
    exact i.unit.strictMono_start.monotone hm
  · rw [floor_eq hstep hms hs, hsearch, Instant.toFloat_atMillis]

/-- The first boundary is searched for from the first unit that starts at the instant or after it. -/
theorem exists_ceil_stops (hstep : 1 ≤ i.step) {ms : ℤ} (hms : InDates ms)
    (hs : InDates (i.unit.start (i.unit.index ms))) (hfrom : InDates (i.unit.start (i.unit.indexFrom ms))) :
    ∃ k : ℕ, i.Stops 1 (i.unit.indexFrom ms) k ∧
      i.ceil (Float.ofInt ms) = .ok (Float.ofInt (i.unit.start (i.unit.indexFrom ms + 1 * k))) ∧
      i.Reaches 1 (atMillis (i.unit.start (i.firstIndex ms)))
        (atMillis (i.unit.start (i.unit.indexFrom ms + 1 * k))) := by
  have hfirst : i.firstIndex ms = i.unit.indexFrom ms := if_pos hfrom
  obtain ⟨k, hk, hup⟩ := exists_stops hfrom (exists_kept_above hstep (i.unit.indexFrom ms))
  obtain ⟨hsearch, hreaches⟩ := search_of_stops hup hk
  refine ⟨k, hup, ?_, hfirst ▸ hreaches⟩
  rw [ceil_eq hstep hms hs, hfirst, hsearch, Instant.toFloat_atMillis]

theorem ceil_isLeast (hstep : 1 ≤ i.step) {ms n : ℤ} (hms : InDates ms)
    (hs : InDates (i.unit.start (i.unit.index ms))) (hn : i.Kept n) (hdates : InDates (i.unit.start n))
    (hge : ms ≤ i.unit.start n) :
    ∃ upper, IsLeast {b | i.IsBoundary b ∧ ms ≤ b} upper ∧
      i.ceil (Float.ofInt ms) = .ok (Float.ofInt upper) ∧
      i.Reaches 1 (atMillis (i.unit.start (i.firstIndex ms))) (atMillis upper) := by
  have hle := (i.unit.le_start_iff n ms).1 hge
  have hfrom : InDates (i.unit.start (i.unit.indexFrom ms)) :=
    hms.between hdates ((i.unit.le_start_iff _ ms).2 le_rfl) (i.unit.strictMono_start.monotone hle)
  obtain ⟨k, hup, hceil, hreaches⟩ := exists_ceil_stops hstep hms hs hfrom
  have hupper := (hup.kept_ahead hn hdates hle).1
  refine ⟨_, ⟨⟨(isBoundary_iff _).2 ⟨hup.dates k le_rfl, _, rfl, hupper⟩, ?_⟩, ?_⟩, hceil, hreaches⟩
  · rw [i.unit.le_start_iff]
    omega
  · rintro b ⟨hb, hge⟩
    obtain ⟨hdates, m, rfl, hkept⟩ := (isBoundary_iff _).1 hb
    have hm := (hup.kept_ahead hkept hdates ((i.unit.le_start_iff m ms).1 hge)).2
    exact i.unit.strictMono_start.monotone hm

/-- **Floor and ceiling.** Between boundaries that have dates the searches end, and the floor is the last
boundary up to an instant, the ceiling the first one from it on. -/
theorem floor_ceil (hstep : 1 ≤ i.step) {ms : ℤ} (hbelow : ∃ b ≤ ms, i.IsBoundary b)
    (habove : ∃ b, ms ≤ b ∧ i.IsBoundary b) :
    ∃ lower upper,
      IsGreatest {b | i.IsBoundary b ∧ b ≤ ms} lower ∧ IsLeast {b | i.IsBoundary b ∧ ms ≤ b} upper ∧
      i.floor (Float.ofInt ms) = .ok (Float.ofInt lower) ∧
      i.ceil (Float.ofInt ms) = .ok (Float.ofInt upper) ∧
      ∃ t, floorUnit i.unit (atMillis ms) = .ok (some t) ∧ i.Reaches (-1) t (atMillis lower) ∧
        i.Reaches 1 (if t.millis < ms then (offsetUnit? i.unit t 1).getD t else t) (atMillis upper) := by
  obtain ⟨below, hle, hbelow⟩ := hbelow
  obtain ⟨above, hge, habove⟩ := habove
  obtain ⟨hlow, n, rfl, hn⟩ := (isBoundary_iff _).1 hbelow
  obtain ⟨hhigh, m, rfl, hm⟩ := (isBoundary_iff _).1 habove
  have hms : InDates ms := hlow.between hhigh hle hge
  have hindex := i.unit.strictMono_start.monotone ((i.unit.start_le_iff n ms).1 hle)
  have hs : InDates (i.unit.start (i.unit.index ms)) := hlow.between hms hindex (i.unit.start_index_le ms)
  obtain ⟨lower, hlower, hfloor, hdown⟩ := floor_isGreatest hstep hms hs hn hlow hle
  obtain ⟨upper, hupper, hceil, hup⟩ := ceil_isLeast hstep hms hs hm hhigh hge
  refine ⟨lower, upper, hlower, hupper, hfloor, hceil, _, floorUnit_atMillis hms hs, hdown, ?_⟩
  rwa [Instant.millis_atMillis, start_firstIndex hs]

/-- Every tenth day of the months, at noon of the leap day of year zero: the 21st of February lies
before, the first of March after. -/
theorem floor_ceil_leapDay :
    IsGreatest {b | (⟨.day, 10⟩ : TimeInterval).IsBoundary b ∧ b ≤ -62162078400000} (-62162812800000) ∧
      IsLeast {b | (⟨.day, 10⟩ : TimeInterval).IsBoundary b ∧ -62162078400000 ≤ b} (-62162035200000) := by
  have hlower : (⟨.day, 10⟩ : TimeInterval).IsBoundary (-62162812800000) :=
    ⟨_, Instant.ofMillis?_of_inDates (by decide), by decide, by decide⟩
  have hupper : (⟨.day, 10⟩ : TimeInterval).IsBoundary (-62162035200000) :=
    ⟨_, Instant.ofMillis?_of_inDates (by decide), by decide, by decide⟩
  obtain ⟨a, b, ha, hb, hfloor, hceil, -⟩ := @floor_ceil _ (by decide) (-62162078400000)
    ⟨_, by decide, hlower⟩ ⟨_, by decide, hupper⟩
  have hfloor' : (⟨.day, 10⟩ : TimeInterval).floor (Float.ofInt (-62162078400000)) =
      .ok (Float.ofInt (-62162812800000)) := by decide +kernel
  have hceil' : (⟨.day, 10⟩ : TimeInterval).ceil (Float.ofInt (-62162078400000)) =
      .ok (Float.ofInt (-62162035200000)) := by decide +kernel
  have hdates {b : ℤ} (hb : (⟨.day, 10⟩ : TimeInterval).IsBoundary b) : IsSmall b :=
    ((isBoundary_iff b).1 hb).1.isSmall
  have hlast := ofInt_injective (hdates ha.1.1) (hdates hlower)
    (Except.ok.inj (hfloor.symm.trans hfloor'))
  have hfirst := ofInt_injective (hdates hb.1.1) (hdates hupper)
    (Except.ok.inj (hceil.symm.trans hceil'))
  exact ⟨hlast ▸ ha, hfirst ▸ hb⟩

end TimeInterval

end ChartTemplate
