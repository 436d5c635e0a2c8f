import ChartTemplate.Proofs.Ticks.Search

/-!
# Boundaries in a range

`TimeInterval.range` lists the boundaries from one instant to another, in order and each once, up to as
many as are listed. The rounds it may take are enough, and it does not matter whether it goes from unit
to unit or by the stride.

There are two exceptions (`range_iff`). In the days before the first Sunday there is no list of weeks. And
from an instant in the last unit that has a date, after the start of that unit, the list begins with the
start, which lies before the range.
-/

namespace ChartTemplate

open Instant (InDates atMillis ofMillis?)

namespace TimeInterval

variable {i : TimeInterval}

/-! ## Lists of boundaries -/

/-- The list has the boundaries from `start` to `stop`, each once and in order. -/
structure Enumerates (i : TimeInterval) (start stop : ℤ) (all : List ℤ) : Prop where
  sorted : all.SortedLT
  mem_iff : ∀ b, b ∈ all ↔ i.IsBoundary b ∧ start ≤ b ∧ b ≤ stop

theorem exists_enumerates (i : TimeInterval) (start stop : ℤ) : ∃ all, i.Enumerates start stop all := by
  classical
  refine ⟨((Finset.Icc start stop).filter i.IsBoundary).sort, Finset.sortedLT_sort _, fun b => ?_⟩
  rw [Finset.mem_sort, Finset.mem_filter, Finset.mem_Icc, and_comm]

namespace Enumerates

variable {start stop : ℤ} {all all' : List ℤ}

theorem unique (h : i.Enumerates start stop all) (h' : i.Enumerates start stop all') : all = all' :=
  h.sorted.eq_of_mem_iff h'.sorted fun b => (h.mem_iff b).trans (h'.mem_iff b).symm

theorem eq_nil (h : i.Enumerates start stop all) (hnone : ∀ b, i.IsBoundary b → start ≤ b → stop < b) :
    all = [] := by
  rw [List.eq_nil_iff_forall_not_mem]
  intro b hb
  obtain ⟨hboundary, hstart, hstop⟩ := (h.mem_iff b).1 hb
  exact (hnone b hboundary hstart).not_ge hstop

theorem congr_start {start' : ℤ} (h : i.Enumerates start stop all)
    (hstart : ∀ b, i.IsBoundary b → (start ≤ b ↔ start' ≤ b)) : i.Enumerates start' stop all := by
  refine ⟨h.sorted, fun b => ?_⟩
  rw [h.mem_iff, and_congr_right fun hb => and_congr_left fun _ => hstart b hb]

theorem cons {next : ℤ} (h : i.Enumerates next stop all) (hboundary : i.IsBoundary start) (hle : start ≤ stop)
    (hlt : start < next) (hnext : ∀ b, i.IsBoundary b → (start < b ↔ next ≤ b)) :
    i.Enumerates start stop (start :: all) := by
  constructor
  · refine (List.pairwise_cons.2 ⟨fun b hb => ?_, h.sorted.pairwise⟩).sortedLT
    exact hlt.trans_le ((h.mem_iff b).1 hb).2.1
  · intro b
    rw [List.mem_cons, h.mem_iff]
    constructor
    · rintro (rfl | ⟨hb, hge, hstop⟩)
      · exact ⟨hboundary, le_rfl, hle⟩
      · exact ⟨hb, hlt.le.trans hge, hstop⟩
    · rintro ⟨hb, hge, hstop⟩
      rcases hge.eq_or_lt with rfl | hgt
      · exact .inl rfl
      · exact .inr ⟨hb, (hnext b hb).1 hgt, hstop⟩

end Enumerates

/-! ## The loop -/

/-- The loop of `rangeFrom`, by any number of units at a time. -/
def rangeBy (i : TimeInterval) (stride : ℤ) (stop : Float) : ℕ → ℕ → Instant → List Float
  | 0, _, _ => []
  | fuel + 1, room, t =>
    let ms := t.toFloat
    if ms > stop || room = 0 then []
    else
      let next (room : ℕ) : List Float :=
        match offsetUnit? i.unit t stride with
        | some t => rangeBy i stride stop fuel room t
        | none => []
      if i.keeps t then ms :: next (room - 1) else next room

/-- `range` with a stride and a number of rounds. -/
def rangeWith (i : TimeInterval) (stride : ℤ) (fuel : ℕ) (start stop : Float) : Except Fault (List Float) := do
  let first ← i.ceil start
  match instantOf? first with
  | none => pure []
  | some t =>
    if i.step = 0 then throw .zeroStep
    pure (i.rangeBy stride stop fuel maxBoundaries t)

def rounds (i : TimeInterval) : ℕ :=
  (maxBoundaries + 1) * (i.searchBound + 1)

theorem rangeFrom_eq_rangeBy (stop : Float) (fuel room : ℕ) (t : Instant) :
    i.rangeFrom stop fuel room t = i.rangeBy i.stride stop fuel room t := by
  induction fuel generalizing room t with
  | zero => rfl
  | succ fuel ih =>
    simp only [rangeFrom, ih]
    rfl

theorem range_eq_rangeWith (start stop : Float) :
    i.range start stop = i.rangeWith i.stride i.rounds start stop := by
  unfold range rangeWith
  simp only [rangeFrom_eq_rangeBy]
  rfl

/-- Within `gap` rounds the `n`th unit is followed by one that the step keeps, or by the end of the
dates. -/
def Near (i : TimeInterval) (stride : ℤ) (gap : ℕ) (n : ℤ) : Prop :=
  ∃ k ≤ gap, i.Kept (n + stride * (k : ℕ)) ∨ ¬ InDates (i.unit.start (n + stride * (k : ℕ)))

theorem Near.next {stride n : ℤ} {gap : ℕ} (h : i.Near stride gap n) (hkept : ¬ i.Kept n)
    (hn : InDates (i.unit.start n)) : ∃ rest, gap = rest + 1 ∧ i.Near stride rest (n + stride) := by
  obtain ⟨k, hk, hlast⟩ := h
  cases k with
  | zero => simp [hkept, hn] at hlast
  | succ k =>
    have hnext : n + stride * (k + 1 : ℕ) = n + stride + stride * k := by
      push_cast
      ring
    rw [hnext] at hlast
    exact ⟨gap - 1, by omega, k, by omega, hlast⟩

/-- From the `n`th unit on, boundaries are met by going `stride` units at a time: none lies between, and
the next one, or the end of the dates, is within the bound of a search. -/
structure Meets (i : TimeInterval) (stride n : ℤ) : Prop where
  pos : 0 < stride
  aligned : ∀ m, n ≤ m → i.Kept m → InDates (i.unit.start m) → stride ∣ m - n
  near : ∀ m, n ≤ m → stride ∣ m - n → i.Near stride i.searchBound m

theorem meets_one (hstep : 1 ≤ i.step) (n : ℤ) : i.Meets 1 n := by
  refine ⟨one_pos, fun m _ _ _ => one_dvd _, fun m _ _ => ?_⟩
  obtain ⟨k, hk, hkept⟩ := exists_kept_above hstep m
  exact ⟨k, hk, .inl hkept⟩

theorem meets_step (hstep : 1 ≤ i.step) (hunit : ∀ m, i.unit.number m = m) {n : ℤ}
    (hn : InDates (i.unit.start n)) (hfirst : i.Kept n ∨ ¬ InDates (i.unit.start (n + 1))) :
    i.Meets i.step n := by
  have hkept (m : ℤ) : i.Kept m ↔ i.step ∣ m := by rw [Kept, hunit]
  rcases hfirst with hfirst | hnone
  · refine ⟨by omega, fun m hle hm hdates => ?_, fun m hle hm => ?_⟩
    · exact dvd_sub ((hkept m).1 hm) ((hkept n).1 hfirst)
    · refine ⟨0, Nat.zero_le _, .inl ?_⟩
      have hsum := dvd_add hm ((hkept n).1 hfirst)
      rw [sub_add_cancel] at hsum
      rw [hkept, Nat.cast_zero, mul_zero, add_zero]
      exact hsum
  · have hend (m : ℤ) (hm : n < m) : ¬ InDates (i.unit.start m) := fun h =>
      hnone (TimeUnit.inDates_start_between hn h (by omega) (by omega))
    refine ⟨by omega, fun m hle hm hdates => ?_, fun m hle hm => ?_⟩
    · have heq : m = n := by
        by_contra hne
        exact hend m (by omega) hdates
      rw [heq, sub_self]
      exact dvd_zero _
    · have hbound : 1 ≤ i.searchBound := by
        unfold searchBound
        omega
      refine ⟨1, hbound, .inr (hend _ ?_)⟩
      push_cast
      omega

theorem meets_stride (hstep : 1 ≤ i.step) {n : ℤ} (hn : InDates (i.unit.start n))
    (hfirst : i.Kept n ∨ ¬ InDates (i.unit.start (n + 1))) : i.Meets i.stride n := by
  unfold stride
  cases hunit : i.unit with
  | millisecond | year => exact meets_step hstep (fun m => by rw [hunit]; rfl) hn hfirst
  | _ => exact meets_one hstep n

namespace Meets

variable {stride n stop : ℤ} {rest : List ℤ}

theorem next (h : i.Meets stride n) : i.Meets stride (n + stride) := by
  have hpos := h.pos
  have hdvd (m : ℤ) : stride ∣ m - (n + stride) ↔ stride ∣ m - n := by
    rw [← sub_sub, dvd_sub_self_right]
  refine ⟨hpos, fun m hle hm hdates => ?_, fun m hle hm => ?_⟩
  · exact (hdvd m).2 (h.aligned m (by omega) hm hdates)
  · exact h.near m (by omega) ((hdvd m).1 hm)

theorem start_lt (h : i.Meets stride n) : i.unit.start n < i.unit.start (n + stride) :=
  i.unit.strictMono_start (lt_add_of_pos_right n h.pos)

theorem lt_iff (h : i.Meets stride n) {b : ℤ} (hb : i.IsBoundary b) :
    i.unit.start n < b ↔ i.unit.start (n + stride) ≤ b := by
  constructor
  · intro hlt
    obtain ⟨hdates, m, rfl, hm⟩ := (isBoundary_iff b).1 hb
    have hlt := i.unit.strictMono_start.lt_iff_lt.1 hlt
    have hle := Int.le_of_dvd (by omega) (h.aligned m hlt.le hm hdates)
    exact i.unit.strictMono_start.monotone (by omega)
  · intro hle
    exact h.start_lt.trans_le hle

theorem enumerates_of_kept (h : i.Meets stride n) (hrest : i.Enumerates (i.unit.start (n + stride)) stop rest)
    (hn : InDates (i.unit.start n)) (hkept : i.Kept n) (hle : i.unit.start n ≤ stop) :
    i.Enumerates (i.unit.start n) stop (i.unit.start n :: rest) := by
  have hboundary : i.IsBoundary (i.unit.start n) := (isBoundary_iff _).2 ⟨hn, n, rfl, hkept⟩
  exact hrest.cons hboundary hle h.start_lt fun b hb => h.lt_iff hb

theorem enumerates_of_not_kept (h : i.Meets stride n)
    (hrest : i.Enumerates (i.unit.start (n + stride)) stop rest) (hkept : ¬ i.Kept n) :
    i.Enumerates (i.unit.start n) stop rest := by
  refine hrest.congr_start fun b hb => ?_
  rw [← h.lt_iff hb]
  refine ⟨le_of_lt, fun hge => hge.lt_of_ne ?_⟩
  rintro rfl
  obtain ⟨-, m, hm, hkm⟩ := (isBoundary_iff _).1 hb
  exact hkept (i.unit.strictMono_start.injective hm ▸ hkm)

theorem eq_nil_of_not_inDates (h : i.Meets stride n)
    (hrest : i.Enumerates (i.unit.start (n + stride)) stop rest) (hn : InDates (i.unit.start n))
    (hnone : ¬ InDates (i.unit.start (n + stride))) : rest = [] :=
  hrest.eq_nil fun b hb hge =>
    absurd (hn.between ((isBoundary_iff b).1 hb).1 h.start_lt.le hge) hnone

end Meets

/-- **The loop** lists the boundaries up to `stop`, as many as there is room for, if it may take enough
rounds: for each boundary those up to the next one. -/
theorem rangeBy_start {stride n stop : ℤ} {fuel room gap : ℕ} {all : List ℤ} (hmeets : i.Meets stride n)
    (hn : InDates (i.unit.start n)) (hstop : InDates stop) (hall : i.Enumerates (i.unit.start n) stop all)
    (hnear : i.Near stride gap n) (hfuel : room * (i.searchBound + 1) + gap < fuel) :
    i.rangeBy stride (Float.ofInt stop) fuel room (atMillis (i.unit.start n)) =
      (all.take room).map Float.ofInt := by
  induction fuel generalizing n room gap all with
  | zero => omega
  | succ fuel ih =>
    rw [rangeBy, Instant.toFloat_atMillis]
    simp only [gt_iff_lt, ofInt_lt_ofInt_iff hstop.isSmall hn.isSmall, Bool.or_eq_true, decide_eq_true_eq]
    by_cases hend : stop < i.unit.start n ∨ room = 0
    · rw [if_pos hend]
      rcases hend with hpast | rfl
      · rw [hall.eq_nil fun b _ hb => hpast.trans_le hb, List.take_nil, List.map_nil]
      · rw [List.take_zero, List.map_nil]
    rw [if_neg hend]
    obtain ⟨hle, hroom⟩ := not_or.1 hend
    obtain ⟨rest, hrest⟩ := i.exists_enumerates (i.unit.start (n + stride)) stop
    -- the boundaries from the next unit on, whether it has a date or not
    have hnext (room : ℕ) {gap : ℕ} (hnear : i.Near stride gap (n + stride))
        (hfuel : room * (i.searchBound + 1) + gap < fuel) :
        (match offsetUnit? i.unit (atMillis (i.unit.start n)) stride with
          | some t => i.rangeBy stride (Float.ofInt stop) fuel room t
          | none => []) = (rest.take room).map Float.ofInt := by
      rw [offsetUnit?_start, Instant.ofMillis?_eq]
      by_cases hdates : InDates (i.unit.start (n + stride))
      · rw [if_pos hdates]
        exact ih hmeets.next hdates hrest hnear hfuel
      · rw [if_neg hdates, hmeets.eq_nil_of_not_inDates hrest hn hdates, List.take_nil, List.map_nil]
    by_cases hkept : i.Kept n
    · obtain ⟨room, rfl⟩ := Nat.exists_eq_succ_of_ne_zero hroom
      have hall' := hmeets.enumerates_of_kept hrest hn hkept (not_lt.1 hle)
      have hnear := hmeets.near (n + stride) (le_add_of_nonneg_right hmeets.pos.le) (by simp)
      rw [Nat.succ_mul] at hfuel
      rw [if_pos ((keeps_start_iff n).2 hkept), hall.unique hall', Nat.succ_sub_one,
        hnext room hnear (by omega)]
      rfl
    · obtain ⟨gap, rfl, hahead⟩ := hnear.next hkept hn
      have hall' := hmeets.enumerates_of_not_kept hrest hkept
      have hkeeps : ¬ i.keeps (atMillis (i.unit.start n)) = true := fun h => hkept ((keeps_start_iff n).1 h)
      rw [if_neg hkeeps, hall.unique hall', hnext room hahead (by omega)]

/-! ## Where the loop starts -/

/-- The instant is followed by a start of a unit. -/
def Inside (i : TimeInterval) (ms : ℤ) : Prop :=
  InDates (i.unit.start (i.unit.indexFrom ms))

theorem ceil_inside (hstep : 1 ≤ i.step) {ms : ℤ} (hms : InDates ms)
    (hs : InDates (i.unit.start (i.unit.index ms))) (hfrom : i.Inside ms) :
    ∃ n, InDates (i.unit.start n) ∧ (i.Kept n ∨ ¬ InDates (i.unit.start (n + 1))) ∧
      i.ceil (Float.ofInt ms) = .ok (Float.ofInt (i.unit.start n)) ∧
      ∀ b, i.IsBoundary b → (i.unit.start n ≤ b ↔ ms ≤ b) := by
  obtain ⟨k, hup, hceil, -⟩ := exists_ceil_stops hstep hms hs hfrom
  refine ⟨i.unit.indexFrom ms + 1 * k, hup.dates k le_rfl, ?_, hceil, fun b hb => ?_⟩
  · have hstop := hup.stop
    push_cast at hstop
    rwa [mul_add, mul_one, ← add_assoc] at hstop
  · obtain ⟨hdates, m, rfl, hm⟩ := (isBoundary_iff b).1 hb
    rw [i.unit.strictMono_start.le_iff_le, i.unit.le_start_iff]
    constructor
    · intro hle
      omega
    · intro hle
      exact (hup.kept_ahead hm hdates hle).2

theorem start_index_lt_of_not_inside {ms : ℤ} (hs : InDates (i.unit.start (i.unit.index ms)))
    (hfrom : ¬ i.Inside ms) :
    i.unit.start (i.unit.index ms) < ms ∧ ¬ InDates (i.unit.start (i.unit.index ms + 1)) := by
  by_cases hlt : i.unit.start (i.unit.index ms) < ms
  · rw [Inside, TimeUnit.indexFrom, if_pos hlt] at hfrom
    exact ⟨hlt, hfrom⟩
  · rw [Inside, TimeUnit.indexFrom, if_neg hlt] at hfrom
    exact absurd hs hfrom

theorem ceil_outside (hstep : 1 ≤ i.step) {ms : ℤ} (hms : InDates ms)
    (hs : InDates (i.unit.start (i.unit.index ms))) (hfrom : ¬ i.Inside ms) :
    i.ceil (Float.ofInt ms) = .ok (Float.ofInt (i.unit.start (i.unit.index ms))) := by
  have hfirst : i.firstIndex ms = i.unit.index ms := if_neg hfrom
  have hstops : i.Stops 1 (i.unit.index ms) 0 := by
    refine ⟨fun j hj => ?_, fun j hj => absurd hj (Nat.not_lt_zero j), .inr ?_⟩
    · obtain rfl := Nat.le_zero.1 hj
      simpa using hs
    · simpa using (start_index_lt_of_not_inside hs hfrom).2
  rw [ceil_eq hstep hms hs, hfirst, (search_of_stops hstops (Nat.zero_le _)).1, Instant.toFloat_atMillis]
  simp

theorem lt_of_not_inside {ms b : ℤ} (hms : InDates ms) (hfrom : ¬ i.Inside ms) (hb : i.IsBoundary b) :
    b < ms := by
  obtain ⟨hdates, m, rfl, -⟩ := (isBoundary_iff b).1 hb
  by_contra hge
  have hle := (i.unit.le_start_iff m ms).1 (not_lt.1 hge)
  exact hfrom (hms.between hdates ((i.unit.le_start_iff _ ms).2 le_rfl)
    (i.unit.strictMono_start.monotone hle))

theorem exists_ceil (hstep : 1 ≤ i.step) {ms : ℤ} (hms : InDates ms)
    (hs : InDates (i.unit.start (i.unit.index ms))) :
    ∃ n, InDates (i.unit.start n) ∧ (i.Kept n ∨ ¬ InDates (i.unit.start (n + 1))) ∧
      i.ceil (Float.ofInt ms) = .ok (Float.ofInt (i.unit.start n)) := by
  by_cases hfrom : i.Inside ms
  · obtain ⟨n, hn, hfirst, hceil, -⟩ := ceil_inside hstep hms hs hfrom
    exact ⟨n, hn, hfirst, hceil⟩
  · exact ⟨_, hs, .inr (start_index_lt_of_not_inside hs hfrom).2, ceil_outside hstep hms hs hfrom⟩

/-! ## The range -/

theorem rangeWith_of_ceil (hstep : 1 ≤ i.step) {stride n start stop : ℤ} {fuel : ℕ} {all : List ℤ}
    (hceil : i.ceil (Float.ofInt start) = .ok (Float.ofInt (i.unit.start n))) (hn : InDates (i.unit.start n))
    (hfirst : i.Kept n ∨ ¬ InDates (i.unit.start (n + 1))) (hstop : InDates stop)
    (hall : i.Enumerates (i.unit.start n) stop all) (hstride : stride = 1 ∨ stride = i.stride)
    (hfuel : i.rounds ≤ fuel) :
    i.rangeWith stride fuel (Float.ofInt start) (Float.ofInt stop) =
      .ok ((all.take maxBoundaries).map Float.ofInt) := by
  have hmeets : i.Meets stride n := by
    rcases hstride with rfl | rfl
    · exact meets_one hstep n
    · exact meets_stride hstep hn hfirst
  have hloop : i.rangeBy stride (Float.ofInt stop) fuel maxBoundaries (atMillis (i.unit.start n)) =
      (all.take maxBoundaries).map Float.ofInt := by
    refine rangeBy_start hmeets hn hstop hall (hmeets.near n le_rfl (by simp)) ?_
    rw [rounds, Nat.succ_mul] at hfuel
    omega
  have hzero : i.step ≠ 0 := by omega
  unfold rangeWith
  rw [hceil]
  show (match instantOf? (Float.ofInt (i.unit.start n)) with
    | none => _
    | some t => _) = _
  rw [instantOf?_ofInt hn]
  show (if i.step = 0 then _ else _) = _
  rw [if_neg hzero]
  exact congrArg Except.ok hloop

theorem beforeSundays_ofInt_iff {ms : ℤ} (h : InDates ms) :
    BeforeSundays (Float.ofInt ms) ↔ ms / 86400000 < firstSunday.toDays := by
  rw [BeforeSundays, instantOf?_ofInt h]
  simp only [Option.some.injEq, exists_eq_left', Instant.dayNumber_atMillis]

/-- **The stride.** The list is the same unit by unit, and after more rounds. -/
theorem rangeWith_eq_range (hstep : 1 ≤ i.step) {start stop : ℤ} (hstart : InDates start)
    (hstop : InDates stop) {stride : ℤ} (hstride : stride = 1 ∨ stride = i.stride) {fuel : ℕ}
    (hfuel : i.rounds ≤ fuel) :
    i.rangeWith stride fuel (Float.ofInt start) (Float.ofInt stop) =
      i.range (Float.ofInt start) (Float.ofInt stop) := by
  rw [range_eq_rangeWith]
  by_cases hs : InDates (i.unit.start (i.unit.index start))
  · obtain ⟨n, hn, hfirst, hceil⟩ := exists_ceil hstep hstart hs
    obtain ⟨all, hall⟩ := i.exists_enumerates (i.unit.start n) stop
    rw [rangeWith_of_ceil hstep hceil hn hfirst hstop hall hstride hfuel,
      rangeWith_of_ceil hstep hceil hn hfirst hstop hall (.inr rfl) le_rfl]
  · rw [TimeUnit.inDates_start_iff hstart, not_not, ← beforeSundays_ofInt_iff hstart] at hs
    have hceil := (ceil_eq_error_iff (i := i) (by omega) (Float.ofInt start)).2 ⟨hs.1, hs.2, rfl⟩
    have hfault (g g' : Float → Except Fault (List Float)) :
        (Except.error .dateRange >>= g) = (Except.error .dateRange >>= g') := rfl
    unfold rangeWith
    rw [hceil]
    exact hfault _ _

/-- A boundary before `start` is the start of the last unit that has a date. -/
def EndsBefore (i : TimeInterval) (start stop : ℤ) : Prop :=
  ∃ b, i.IsBoundary b ∧ b < start ∧ b ≤ stop ∧ offsetUnit? i.unit (atMillis b) 1 = none

theorem not_endsBefore_of_inside {start : ℤ} (hfrom : i.Inside start) (stop : ℤ) : ¬ i.EndsBefore start stop := by
  rintro ⟨b, hb, hlt, -, hnone⟩
  obtain ⟨hdates, m, rfl, -⟩ := (isBoundary_iff b).1 hb
  rw [offsetUnit?_start, Instant.ofMillis?_eq, ite_eq_right_iff] at hnone
  have hm : m + 1 ≤ i.unit.indexFrom start := by
    by_contra hle
    exact hlt.not_ge ((i.unit.le_start_iff m start).2 (by omega))
  cases hnone (TimeUnit.inDates_start_between hdates hfrom (by omega) hm)

theorem endsBefore_iff_of_not_inside {start stop : ℤ} (hstart : InDates start)
    (hs : InDates (i.unit.start (i.unit.index start))) (hfrom : ¬ i.Inside start) :
    i.EndsBefore start stop ↔ ∃ b, i.IsBoundary b ∧ i.unit.start (i.unit.index start) ≤ b ∧ b ≤ stop := by
  obtain ⟨-, hlast⟩ := start_index_lt_of_not_inside hs hfrom
  constructor
  · rintro ⟨b, hb, -, hle, hnone⟩
    refine ⟨b, hb, ?_, hle⟩
    obtain ⟨hdates, m, rfl, -⟩ := (isBoundary_iff b).1 hb
    rw [offsetUnit?_start, Instant.ofMillis?_eq, ite_eq_right_iff] at hnone
    refine i.unit.strictMono_start.monotone (not_lt.1 fun hlt => ?_)
    cases hnone (TimeUnit.inDates_start_between hdates hs (by omega) hlt)
  · rintro ⟨b, hb, hge, hle⟩
    refine ⟨b, hb, lt_of_not_inside hstart hfrom hb, hle, ?_⟩
    obtain ⟨-, m, rfl, -⟩ := (isBoundary_iff b).1 hb
    have hm := i.unit.strictMono_start.le_iff_le.1 hge
    rw [offsetUnit?_start, Instant.ofMillis?_eq, if_neg]
    exact fun hdates => hlast (TimeUnit.inDates_start_between hs hdates (by omega) (by omega))

/-- `range` lists the boundaries from `start` to `stop` if the loop starts at the first of them. -/
theorem range_iff_of_dates (hstep : 1 ≤ i.step) {start stop : ℤ} (hstart : InDates start)
    (hstop : InDates stop) (hs : InDates (i.unit.start (i.unit.index start))) :
    (∃ all, i.Enumerates start stop all ∧
      i.range (Float.ofInt start) (Float.ofInt stop) = .ok ((all.take maxBoundaries).map Float.ofInt)) ↔
      ¬ i.EndsBefore start stop := by
  by_cases hfrom : i.Inside start
  · refine iff_of_true ?_ (not_endsBefore_of_inside hfrom stop)
    obtain ⟨n, hn, hfirst, hceil, hsame⟩ := ceil_inside hstep hstart hs hfrom
    obtain ⟨all, hall⟩ := i.exists_enumerates (i.unit.start n) stop
    refine ⟨all, hall.congr_start hsame, ?_⟩
    rw [range_eq_rangeWith, rangeWith_of_ceil hstep hceil hn hfirst hstop hall (.inr rfl) le_rfl]
  · obtain ⟨hlt, hlast⟩ := start_index_lt_of_not_inside hs hfrom
    obtain ⟨met, hmet⟩ := i.exists_enumerates (i.unit.start (i.unit.index start)) stop
    have hrange := rangeWith_of_ceil hstep (ceil_outside hstep hstart hs hfrom) hs (.inr hlast) hstop hmet
      (.inr rfl) le_rfl
    rw [← range_eq_rangeWith] at hrange
    rw [endsBefore_iff_of_not_inside hstart hs hfrom, hrange]
    -- no boundary is left from `start` on, and the list has those that are met
    have hnil {all : List ℤ} (hall : i.Enumerates start stop all) : all = [] :=
      hall.eq_nil fun b hb hge => absurd (lt_of_not_inside hstart hfrom hb) hge.not_gt
    constructor
    · rintro ⟨all, hall, heq⟩ ⟨b, hb, hge, hle⟩
      have hmem : b ∈ met := (hmet.mem_iff b).2 ⟨hb, hge, hle⟩
      simp only [hnil hall, List.take_nil, List.map_nil, Except.ok.injEq, List.map_eq_nil_iff,
        List.take_eq_nil_iff] at heq
      rcases heq with hzero | rfl
      · cases hzero
      · cases hmem
    · intro hnone
      obtain ⟨all, hall⟩ := i.exists_enumerates start stop
      have hmet' : met = [] := hmet.eq_nil fun b hb hge => not_le.1 fun hle => hnone ⟨b, hb, hge, hle⟩
      exact ⟨all, hall, by rw [hnil hall, hmet']⟩

/-- Nothing is listed exactly if there are no boundaries, and no start of the last unit before them. -/
theorem range_eq_nil_iff (hstep : 1 ≤ i.step) {start stop : ℤ} (hstart : InDates start)
    (hstop : InDates stop) (hs : InDates (i.unit.start (i.unit.index start))) :
    i.range (Float.ofInt start) (Float.ofInt stop) = .ok [] ↔
      (∀ b, i.IsBoundary b → start ≤ b → stop < b) ∧ ¬ i.EndsBefore start stop := by
  have hiff := range_iff_of_dates hstep hstart hstop hs
  constructor
  · intro hnil
    have hends : ¬ i.EndsBefore start stop := by
      intro hends
      have hfrom : ¬ i.Inside start := fun hfrom => not_endsBefore_of_inside hfrom stop hends
      obtain ⟨all, hall⟩ := i.exists_enumerates start stop
      obtain rfl := hall.eq_nil fun b hb hge => absurd (lt_of_not_inside hstart hfrom hb) hge.not_gt
      exact hiff.1 ⟨[], hall, hnil⟩ hends
    obtain ⟨all, hall, hrange⟩ := hiff.2 hends
    have hall' : all = [] := by
      rw [hnil, Except.ok.injEq, eq_comm, List.map_eq_nil_iff, List.take_eq_nil_iff] at hrange
      exact hrange.resolve_left (by decide)
    subst hall'
    refine ⟨fun b hb hge => not_le.1 fun hle => ?_, hends⟩
    exact List.not_mem_nil ((hall.mem_iff b).2 ⟨hb, hge, hle⟩)
  · rintro ⟨hnone, hends⟩
    obtain ⟨all, hall, hrange⟩ := hiff.2 hends
    rw [hrange, hall.eq_nil hnone, List.take_nil, List.map_nil]

/-- **Ranges.** The boundaries from `start` to `stop` are listed, in order and each once, up to as many as
are listed, exactly if it is not the case that weeks are counted from before the first Sunday, or that the
start of the last unit, before `start`, is listed. It is all the same whether the units are gone through
by the stride or one by one. -/
theorem range_iff (hstep : 1 ≤ i.step) {start stop : ℤ} (hstart : InDates start) (hstop : InDates stop) :
    ((∃ all, i.Enumerates start stop all ∧
      i.range (Float.ofInt start) (Float.ofInt stop) = .ok ((all.take maxBoundaries).map Float.ofInt)) ↔
      ¬ (i.unit = .week ∧ BeforeSundays (Float.ofInt start)) ∧ ¬ i.EndsBefore start stop) ∧
    ∀ stride, stride = 1 ∨ stride = i.stride → ∀ fuel ≥ i.rounds,
      i.rangeWith stride fuel (Float.ofInt start) (Float.ofInt stop) =
        i.range (Float.ofInt start) (Float.ofInt stop) := by
  refine ⟨?_, fun stride hstride fuel hfuel => rangeWith_eq_range hstep hstart hstop hstride hfuel⟩
  by_cases hsunday : i.unit = .week ∧ BeforeSundays (Float.ofInt start)
  · refine iff_of_false ?_ fun h => h.1 hsunday
    rintro ⟨all, -, hok⟩
    have herror := (range_eq_error_iff (i := i) (by omega) (Float.ofInt start) (Float.ofInt stop)).2
      ⟨hsunday.1, hsunday.2, rfl⟩
    cases herror.symm.trans hok
  · have hs : InDates (i.unit.start (i.unit.index start)) := by
      rwa [TimeUnit.inDates_start_iff hstart, ← beforeSundays_ofInt_iff hstart]
    rw [range_iff_of_dates hstep hstart hstop hs, and_iff_right hsunday]

/-- Every fifth month from the last millisecond of a century on: January, June and November of each
year. -/
theorem range_months :
    ∃ all, (⟨.month, 5⟩ : TimeInterval).Enumerates 946684799999 983404800000 all ∧
      (⟨.month, 5⟩ : TimeInterval).range (Float.ofInt 946684799999) (Float.ofInt 983404800000) =
        .ok ((all.take maxBoundaries).map Float.ofInt) := by
  refine (range_iff (by decide) (by decide) (by decide)).1.2 ⟨?_, not_endsBefore_of_inside ?_ _⟩
  · rintro ⟨hweek, -⟩
    cases hweek
  · unfold Inside
    decide

/-- In the middle of the last year, the first of January is listed. -/
theorem range_lastYear :
    (⟨.year, 1⟩ : TimeInterval).range (Float.ofInt 8210248387200000) (Float.ofInt 8210250979200000) =
        .ok [Float.ofInt 8210235340800000] ∧
      ¬ ∃ all, (⟨.year, 1⟩ : TimeInterval).Enumerates 8210248387200000 8210250979200000 all ∧
        (⟨.year, 1⟩ : TimeInterval).range (Float.ofInt 8210248387200000) (Float.ofInt 8210250979200000) =
          .ok ((all.take maxBoundaries).map Float.ofInt) := by
  have hrange : (⟨.year, 1⟩ : TimeInterval).range (Float.ofInt 8210248387200000)
      (Float.ofInt 8210250979200000) = .ok [Float.ofInt 8210235340800000] := by decide +kernel
  refine ⟨hrange, ?_⟩
  rintro ⟨all, hall, hok⟩
  have hlist := Except.ok.inj (hrange.symm.trans hok)
  have hmem : Float.ofInt 8210235340800000 ∈ (all.take maxBoundaries).map Float.ofInt := by
    rw [← hlist]
    exact List.mem_singleton_self _
  obtain ⟨b, hb, heq⟩ := List.mem_map.1 hmem
  obtain ⟨hboundary, hge, -⟩ := (hall.mem_iff b).1 (List.mem_of_mem_take hb)
  have hb := ofInt_injective ((isBoundary_iff b).1 hboundary).1.isSmall (by unfold IsSmall; decide) heq
  omega

end TimeInterval

end ChartTemplate
