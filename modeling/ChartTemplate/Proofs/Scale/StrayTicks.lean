import ChartTemplate.Proofs.Helper.TickCounts
import ChartTemplate.Proofs.Numeric.Signs
import ChartTemplate.Proofs.Scale.TimeDomain

/-!
# Ticks for meaningless counts

A count that is NaN or not positive asks for no ticks. Linear ticks heed this, and so do all scales that
have them. Two generators do not look at the count first. Where a logarithmic scale takes the lesser of the
count and the number of powers, NaN is ignored and all powers are marked (`StrayPowers`). And a time scale
divides the length of its domain by the count, and marks the boundaries of the interval that this gives
(`StrayBoundaries`): always the start of 1970, if it lies in the domain (`strayBoundaries_epoch`).
`Scale.no_ticks_iff` : there are no other ticks for such counts.
-/

namespace ChartTemplate

open Instant (InDates)

variable {count : Float}

/-- A count that asks for no ticks. -/
def Meaningless (count : Float) : Prop :=
  count.isNaN = true ∨ count ≤ 0

theorem ticks_of_meaningless (h : Meaningless count) (start stop : Float) : ticks start stop count = [] := by
  unfold ticks
  refine if_pos ?_
  rcases h with h | h <;> simp only [h, decide_true, Bool.true_or, Bool.or_true]

/-! ## Logarithmic scales -/

namespace Continuous

/-- The multiples of powers from `lo` to `hi`. -/
def multiplesWithin (reflect : Bool) (base lo hi : Float) : List Float :=
  let first := floor (logarithm reflect base lo)
  let last := ceil (logarithm reflect base hi)
  ((countUp (truncInt (last - first) + 1).toNat).map fun k => first + k).flatMap
    (multiples reflect base lo hi)

/-- The multiples of powers are few enough to be marked for the count. -/
def Marked (reflect : Bool) (base lo hi count : Float) : Prop :=
  let i := logarithm reflect base lo
  let j := logarithm reflect base hi
  (fract base == 0) = true ∧ j - i < count ∧ (ceil j - floor i + 1) * base ≤ maxTickCount

instance (reflect : Bool) (base lo hi count : Float) : Decidable (Marked reflect base lo hi count) :=
  inferInstanceAs (Decidable (_ ∧ _ ∧ _))

/-- The ticks of a logarithmic scale from `lo` to `hi`. -/
def logTicksWithin (reflect : Bool) (base lo hi count : Float) : List Float :=
  let i := logarithm reflect base lo
  let j := logarithm reflect base hi
  let found := multiplesWithin reflect base lo hi
  if Marked reflect base lo hi count then
    if Float.ofNat found.length * 2 < count then ChartTemplate.ticks lo hi count else found
  else (ChartTemplate.ticks i j (minNumber (j - i) count)).map (power reflect base)

theorem logTicks_eq (reflect : Bool) (base start stop count : Float) :
    logTicks reflect base start stop count =
      if stop < start then (logTicksWithin reflect base stop start count).reverse
      else logTicksWithin reflect base start stop count := by
  unfold logTicks logTicksWithin Marked multiplesWithin
  by_cases h : stop < start
  · simp [h, and_assoc]
  · simp [h, and_assoc]

/-- Ticks of a logarithmic scale that nobody asked for. -/
inductive StrayPowers (reflect : Bool) (base lo hi count : Float) : Prop
  /-- NaN is ignored, and as many powers are marked as there are. -/
  | ignored (hcount : count.isNaN = true)
      (h : ChartTemplate.ticks (logarithm reflect base lo) (logarithm reflect base hi)
        (logarithm reflect base hi - logarithm reflect base lo) ≠ [])
  /-- The logarithms are in the wrong order, so that there are fewer powers than the count. -/
  | reversed (hmarked : Marked reflect base lo hi count) (h : multiplesWithin reflect base lo hi ≠ [])

theorem not_lt_of_meaningless (h : Meaningless count) (n : ℕ) : ¬ Float.ofNat n * 2 < count := by
  intro hlt
  obtain ⟨m, e, hparts, hvalue⟩ := ofNat_exact (n := 2) (by decide)
  have hm : 0 < m := by
    refine Nat.pos_of_ne_zero fun hm => ?_
    rw [magnitude_eq_zero_iff.mpr hm] at hvalue
    norm_num at hvalue
  obtain ⟨hproduct, hcount⟩ := Float.isNaN_of_lt hlt
  have hrank := (rank_le_zero_iff.2 h).trans (rank_ofNat_mul n hparts hm)
  exact ((lt_iff_rank hproduct hcount).1 hlt).not_ge hrank

/-- The lesser of anything and a meaningless count is meaningless, unless the count is NaN and ignored. -/
theorem ticks_minNumber (h : Meaningless count) (start stop n : Float) :
    ChartTemplate.ticks start stop (minNumber n count) =
      if count.isNaN then ChartTemplate.ticks start stop n else [] := by
  cases hn : n.isNaN with
  | true =>
    have hmin : minNumber n count = count := if_pos hn
    rw [hmin, ticks_of_meaningless h, ticks_of_meaningless (.inl hn), ite_self]
  | false =>
    cases hcount : count.isNaN with
    | true => rw [minNumber_of_isNaN hn hcount, if_pos rfl]
    | false =>
      have hle := (minNumber_le hn hcount).2.2
      have hmin : Meaningless (minNumber n count) :=
        h.imp (fun hnan => by cases hcount.symm.trans hnan) (Float.le_trans hle)
      rw [ticks_of_meaningless hmin, if_neg Bool.false_ne_true]

theorem logTicksWithin_eq_nil_iff (h : Meaningless count) (reflect : Bool) (base lo hi : Float) :
    logTicksWithin reflect base lo hi count = [] ↔ ¬ StrayPowers reflect base lo hi count := by
  unfold logTicksWithin
  dsimp only
  by_cases hmarked : Marked reflect base lo hi count
  · have hcount : count.isNaN = false := (Float.isNaN_of_lt hmarked.2.1).2
    rw [if_pos hmarked, if_neg (not_lt_of_meaningless h _)]
    constructor
    · rintro hnil (⟨hnan, -⟩ | ⟨-, hfound⟩)
      · cases hcount.symm.trans hnan
      · exact hfound hnil
    · intro hstray
      exact not_not.1 fun hfound => hstray (.reversed hmarked hfound)
  · rw [if_neg hmarked, List.map_eq_nil_iff, ticks_minNumber h]
    split
    · next hnan =>
      constructor
      · rintro hnil (⟨-, hticks⟩ | ⟨hm, -⟩)
        · exact hticks hnil
        · exact hmarked hm
      · intro hstray
        exact not_not.1 fun hticks => hstray (.ignored hnan hticks)
    · next hnan =>
      refine iff_of_true rfl ?_
      rintro (⟨h, -⟩ | ⟨hm, -⟩)
      · exact hnan h
      · exact hmarked hm

theorem logTicks_eq_nil_iff (h : Meaningless count) (reflect : Bool) (base : Float) {start stop lo hi : Float}
    (hspan : (lo, hi) = if stop < start then (stop, start) else (start, stop)) :
    logTicks reflect base start stop count = [] ↔ ¬ StrayPowers reflect base lo hi count := by
  rw [logTicks_eq]
  split at hspan
  · next hlt =>
    cases hspan
    rw [if_pos hlt, List.reverse_eq_nil_iff]
    exact logTicksWithin_eq_nil_iff h reflect base stop start
  · next hlt =>
    cases hspan
    rw [if_neg hlt]
    exact logTicksWithin_eq_nil_iff h reflect base start stop

end Continuous

/-! ## Time scales -/

namespace TimeInterval

/-- Boundaries of a time scale that nobody asked for: those of the interval for the count, or the start of
the last unit that has a date. -/
def StrayBoundaries (lo hi : ℤ) (count : Float) : Prop :=
  let i := forSpan (Float.ofInt lo) (Float.ofInt hi) count
  (∃ b, i.IsBoundary b ∧ lo ≤ b ∧ b ≤ hi) ∨ i.EndsBefore lo hi

theorem not_le_of_rank {x : Float} (h : rank x ≤ rank 0) : ¬ 1000 ≤ x := by
  intro hle
  obtain ⟨hthousand, hx⟩ := Float.isNaN_of_le hle
  exact absurd (((le_iff_rank hthousand hx).1 hle).trans h) (by decide)

theorem forSpan_unit_of_meaningless (h : Meaningless count) (start stop : Float) :
    (forSpan start stop count).unit = .millisecond ∨
      (forSpan start stop count).unit = .year ∧ (count == 0) = true := by
  unfold forSpan
  dsimp only
  rcases rank_abs_div (stop - start) (rank_le_zero_iff.2 h) with hrank | ⟨hinfinity, hzero⟩
  · left
    rw [decide_eq_false (not_le_of_rank hrank)]
    rfl
  · right
    have hnone : nearest infinity tickIntervals = none := by decide +kernel
    have hle : (1000 : Float) ≤ infinity := by decide
    rw [hinfinity, hnone, decide_eq_true hle]
    exact ⟨rfl, hzero⟩

theorem range_forSpan_eq_nil_iff (h : Meaningless count) {lo hi : ℤ} (hlo : InDates lo) (hhi : InDates hi) :
    (forSpan (Float.ofInt lo) (Float.ofInt hi) count).range (Float.ofInt lo) (Float.ofInt hi) = .ok [] ↔
      ¬ StrayBoundaries lo hi count := by
  have hstep := one_le_forSpan_step (Float.ofInt lo) (Float.ofInt hi) count
  have hunit := forSpan_unit_of_meaningless h (Float.ofInt lo) (Float.ofInt hi)
  unfold StrayBoundaries
  generalize forSpan (Float.ofInt lo) (Float.ofInt hi) count = i at hstep hunit ⊢
  have hs : InDates (i.unit.start (i.unit.index lo)) := by
    rw [TimeUnit.inDates_start_iff hlo]
    rintro ⟨hweek, -⟩
    rcases hunit with hunit | ⟨hunit, -⟩ <;> cases hweek.symm.trans hunit
  rw [range_eq_nil_iff hstep hlo hhi hs, not_or, not_exists]
  simp only [not_and, not_le]

/-- The start of 1970 is a boundary of milliseconds, however many lie between boundaries. -/
theorem strayBoundaries_epoch (h : Meaningless count) (hzero : (count == 0) = false) {lo hi : ℤ} (hlo : lo ≤ 0)
    (hhi : 0 ≤ hi) : StrayBoundaries lo hi count := by
  refine .inl ⟨0, (isBoundary_iff 0).2 ⟨by decide, 0, ?_⟩, hlo, hhi⟩
  unfold Kept
  rcases forSpan_unit_of_meaningless h (Float.ofInt lo) (Float.ofInt hi) with hunit | ⟨-, hcount⟩
  · rw [hunit]
    exact ⟨rfl, dvd_zero _⟩
  · cases hzero.symm.trans hcount

theorem not_strayBoundaries_within {lo hi n : ℤ} (hle : lo ≤ hi)
    (hlo : (forSpan (Float.ofInt lo) (Float.ofInt hi) count).unit.start n < lo)
    (hhi : hi < (forSpan (Float.ofInt lo) (Float.ofInt hi) count).unit.start (n + 1))
    (hnext : InDates ((forSpan (Float.ofInt lo) (Float.ofInt hi) count).unit.start (n + 1))) :
    ¬ StrayBoundaries lo hi count := by
  unfold StrayBoundaries
  generalize forSpan (Float.ofInt lo) (Float.ofInt hi) count = i at hlo hhi hnext ⊢
  rintro (⟨b, hb, hge, hle'⟩ | hends)
  · obtain ⟨-, m, rfl, -⟩ := (isBoundary_iff b).1 hb
    have hafter := i.unit.strictMono_start.lt_iff_lt.1 (hlo.trans_le hge)
    have hbefore := i.unit.strictMono_start.lt_iff_lt.1 (hle'.trans_lt hhi)
    omega
  · refine not_endsBefore_of_inside ?_ hi hends
    have hfrom := (i.unit.le_start_iff (n + 1) lo).1 (hle.trans hhi.le)
    have hnot := (i.unit.le_start_iff n lo).not.1 (not_le.2 hlo)
    rwa [Inside, show i.unit.indexFrom lo = n + 1 by omega]

end TimeInterval

theorem timeTicks_eq_nil_iff (h : Meaningless count) {start stop : ℤ} (hstart : InDates start)
    (hstop : InDates stop) : timeTicks (Float.ofInt start) (Float.ofInt stop) count = .ok [] ↔
      ¬ TimeInterval.StrayBoundaries (min start stop) (max start stop) count := by
  have hreverse (x : Except Fault (List Float)) : x.map List.reverse = .ok [] ↔ x = .ok [] := by
    cases x <;> simp [Except.map]
  unfold timeTicks
  simp only [ofInt_lt_ofInt_iff hstop.isSmall hstart.isSmall]
  by_cases hlt : stop < start
  · rw [if_pos hlt, hreverse, min_eq_right hlt.le, max_eq_left hlt.le]
    exact TimeInterval.range_forSpan_eq_nil_iff h hstop hstart
  · rw [if_neg hlt, min_eq_left (not_lt.1 hlt), max_eq_right (not_lt.1 hlt)]
    exact TimeInterval.range_forSpan_eq_nil_iff h hstart hstop

/-! ## Scales -/

namespace Continuous

/-- Ticks of a continuous scale that nobody asked for. -/
inductive StrayTicks (c : Continuous) (count : Float) : Prop
  | powers {base start stop lo hi : Float} (hc : c.transform = .log base)
      (hends : endsOf? c.domain = some (start, stop))
      (hspan : (lo, hi) = if stop < start then (stop, start) else (start, stop))
      (h : StrayPowers c.reflect base lo hi count)
  | boundaries {start stop : ℤ} (hc : c.transform = .time) (hstart : InDates start) (hstop : InDates stop)
      (hends : endsOf? c.domain = some (Float.ofInt start, Float.ofInt stop))
      (h : TimeInterval.StrayBoundaries (min start stop) (max start stop) count)

/-- The ends of the domain are numbers. -/
def Bounded (c : Continuous) : Prop :=
  ∀ ends ∈ endsOf? c.domain, ends.1.isFinite = true ∧ ends.2.isFinite = true

theorem HasDates.exists_ends {c : Continuous} (hdates : c.HasDates) (hbounded : c.Bounded)
    (hc : c.transform = .time) {a b : Float} (hends : endsOf? c.domain = some (a, b)) :
    ∃ start stop, InDates start ∧ InDates stop ∧ a = Float.ofInt start ∧ b = Float.ofInt stop := by
  have hms {x : Float} (hx : x ∈ c.domain) (hfinite : x.isFinite = true) :
      ∃ ms, InDates ms ∧ x = Float.ofInt ms := by
    refine (hdates hc x hx).resolve_left fun hnan => ?_
    cases hnan.symm.trans ((isFinite_iff x).1 hfinite).1
  have hmem : a ∈ c.domain ∧ b ∈ c.domain := by
    cases hxs : c.domain with
    | nil => rw [hxs] at hends; cases hends
    | cons x xs =>
      rw [hxs] at hends
      cases hends
      exact ⟨List.mem_cons_self, List.getLastD_mem_cons⟩
  obtain ⟨ha, hb⟩ := hbounded _ hends
  obtain ⟨start, hstart, hstart'⟩ := hms hmem.1 ha
  obtain ⟨stop, hstop, hstop'⟩ := hms hmem.2 hb
  exact ⟨start, stop, hstart, hstop, hstart', hstop'⟩

theorem ticks_eq_nil_iff {c : Continuous} (h : Meaningless count) (hdates : c.HasDates) (hbounded : c.Bounded) :
    c.ticks count = .ok [] ↔ ¬ c.StrayTicks count := by
  unfold Continuous.ticks
  cases hends : endsOf? c.domain with
  | none =>
    refine iff_of_true rfl ?_
    rintro (⟨-, hsome, -⟩ | ⟨-, -, -, hsome, -⟩) <;> cases hends.symm.trans hsome
  | some ends =>
    obtain ⟨start, stop⟩ := ends
    dsimp only
    cases hc : c.transform with
    | log base =>
      obtain ⟨lo, hi, hspan⟩ : ∃ lo hi, (lo, hi) = if stop < start then (stop, start) else (start, stop) :=
        ⟨_, _, rfl⟩
      show Except.ok (logTicks c.reflect base start stop count) = .ok [] ↔ _
      rw [Except.ok.injEq, logTicks_eq_nil_iff h c.reflect base hspan, not_iff_not]
      constructor
      · exact .powers hc hends hspan
      · rintro (⟨hlog, hsome, hspan', hpowers⟩ | ⟨htime, -⟩)
        · cases hc.symm.trans hlog
          cases hends.symm.trans hsome
          cases hspan.trans hspan'.symm
          exact hpowers
        · cases hc.symm.trans htime
    | time =>
      obtain ⟨lo, hi, hlo, hhi, rfl, rfl⟩ := hdates.exists_ends hbounded hc hends
      dsimp only
      rw [timeTicks_eq_nil_iff h hlo hhi, not_iff_not]
      constructor
      · exact .boundaries hc hlo hhi hends
      · rintro (⟨hlog, -⟩ | ⟨-, hlo', hhi', hsome, hboundaries⟩)
        · cases hc.symm.trans hlog
        · obtain ⟨hstart, hstop⟩ := Prod.mk.inj (Option.some.inj (hends.symm.trans hsome))
          rw [ofInt_injective hlo.isSmall hlo'.isSmall hstart, ofInt_injective hhi.isSmall hhi'.isSmall hstop]
          exact hboundaries
    | _ =>
      refine iff_of_true (congrArg Except.ok (ticks_of_meaningless h _ _)) ?_
      rintro (⟨hlog, -⟩ | ⟨htime, -⟩)
      · cases hc.symm.trans hlog
      · cases hc.symm.trans htime

end Continuous

namespace Scale

variable {s : Scale} {args : List Value}

/-- **The method** `ticks` gives the values that an axis marks. -/
theorem call_ticks (hkind : s.kind.hasTicks = true) (hcount : countArgument args = .ok count) :
    (s.call .ticks args).run = (s.axisValues count).map fun vs => .ok (s, .array vs) := by
  cases s with
  | continuous c =>
    unfold call axisValues
    simp only
    rw [c.call_ticks args, hcount]
    change ((do
      let xs ← c.ticks count
      return (c, .array (xs.map c.domainValue)) : Checked ScaleError (Continuous × Value)) >>= fun p =>
        pure (continuous p.1, p.2)).run = _
    cases c.ticks count <;> rfl
  | sequential c =>
    unfold call axisValues
    simp only
    rw [c.call_ticks args, hcount]
    cases endsOf? c.domain <;> rfl
  | quantize q =>
    unfold call axisValues
    simp only
    rw [q.call_ticks args, hcount]
    rfl
  | threshold c | ordinal c => cases hkind
  | band b => cases (hasTicks_band b).symm.trans hkind

theorem call_ticks_eq_nil_iff (hkind : s.kind.hasTicks = true) (hcount : countArgument args = .ok count) :
    (s.call .ticks args).run = .ok (.ok (s, .array [])) ↔ s.axisValues count = .ok [] := by
  rw [call_ticks hkind hcount]
  cases s.axisValues count <;> simp [Except.map]

/-- Ticks of a scale that nobody asked for. -/
def StrayTicks (s : Scale) (count : Float) : Prop :=
  ∃ c, s = continuous c ∧ c.StrayTicks count

/-- The ends of the domain of a continuous scale are numbers. -/
def Bounded (s : Scale) : Prop :=
  ∀ c, s = continuous c → c.Bounded

theorem axisValues_eq_nil_iff (h : Meaningless count) (hkind : s.kind.hasTicks = true) (hdates : s.HasDates)
    (hbounded : s.Bounded) : s.axisValues count = .ok [] ↔ ¬ s.StrayTicks count := by
  have hother (hs : ∀ c, s ≠ continuous c) : ¬ s.StrayTicks count := fun ⟨c, hc, _⟩ => hs c hc
  unfold axisValues
  cases s with
  | continuous c =>
    have hticks : (c.ticks count).map (fun xs => xs.map c.domainValue) = .ok [] ↔ c.ticks count = .ok [] := by
      cases c.ticks count <;> simp [Except.map]
    have hstray : (continuous c).StrayTicks count ↔ c.StrayTicks count := by simp [StrayTicks]
    rw [hstray, ← Continuous.ticks_eq_nil_iff h (hdates c rfl) (hbounded c rfl)]
    exact hticks
  | sequential c =>
    refine iff_of_true ?_ (hother nofun)
    dsimp only
    split
    · rw [ticks_of_meaningless h]
      rfl
    · rfl
  | quantize q =>
    refine iff_of_true ?_ (hother nofun)
    dsimp only
    rw [ticks_of_meaningless h]
    rfl
  | threshold c | ordinal c => cases hkind
  | band b => cases (hasTicks_band b).symm.trans hkind

theorem not_oversized_of_meaningless (h : Meaningless count) (hinf : count.isInf = false) : ¬ Oversized count := by
  rintro (hinf' | hlt)
  · cases hinf.symm.trans hinf'
  · obtain ⟨hmax, hcount⟩ := Float.isNaN_of_lt hlt
    have hrank := ((lt_iff_rank hmax hcount).1 hlt).trans_le (rank_le_zero_iff.2 h)
    exact absurd hrank (by decide)

/-- **Meaningless counts.** For a count that is NaN or not positive, a scale has no ticks, neither by the
method `ticks` nor on an axis, exactly if it has none of those that come of a logarithmic scale which
ignores NaN, or of a time scale with boundaries of the interval for the count. Every scale that a run leads
to has dates (`hasDates_run`). -/
theorem no_ticks_iff (hkind : s.kind.hasTicks = true) (hdates : s.HasDates) (hbounded : s.Bounded)
    (hcount : count.isNaN = true ∨ count ≤ 0) :
    (s.axisValues count = .ok [] ↔ ¬ s.StrayTicks count) ∧
      ∀ args, requestedCount args = count → count.isInf = false →
        ((s.call .ticks args).run = .ok (.ok (s, .array [])) ↔ ¬ s.StrayTicks count) := by
  have hvalues := axisValues_eq_nil_iff hcount hkind hdates hbounded
  refine ⟨hvalues, ?_⟩
  rintro args rfl hinf
  have hargs := countArgument_eq args
  rw [if_neg (not_oversized_of_meaningless hcount hinf)] at hargs
  rw [call_ticks_eq_nil_iff hkind hargs, hvalues]

theorem dated_of_ends {c : Continuous} {lo hi : ℤ} (hlo : InDates lo) (hhi : InDates hi)
    (hdomain : c.domain = [Float.ofInt lo, Float.ofInt hi]) :
    (continuous c).HasDates ∧ (continuous c).Bounded := by
  have hfinite {ms : ℤ} (h : InDates ms) : (Float.ofInt ms).isFinite = true := by
    obtain ⟨m, e, -, -, hunpack⟩ := unpack_ofInt h.isSmall
    exact isFinite_of_unpack hunpack
  constructor
  · rintro _ ⟨⟩ _
    simp only [hdomain, List.forall_mem_cons]
    exact ⟨.inr ⟨lo, hlo, rfl⟩, .inr ⟨hi, hhi, rfl⟩, nofun⟩
  · rintro _ ⟨⟩ ends hends
    rw [hdomain] at hends
    cases hends
    exact ⟨hfinite hlo, hfinite hhi⟩

/-- A time scale over a day within a year has no ticks for a count of zero, which asks for years. -/
theorem no_ticks_day :
    ∃ c, Scale.run .time [numberArray [86400000, 172800000], numberArray [0, 1]] [] = .ok (continuous c) ∧
      (continuous c).axisValues 0 = .ok [] ∧
      ((continuous c).call .ticks [.number 0]).run = .ok (.ok (continuous c, .array [])) := by
  obtain ⟨c, hc⟩ : ∃ c, Scale.run .time [numberArray [86400000, 172800000], numberArray [0, 1]] [] =
    .ok (continuous c) := ⟨_, rfl⟩
  have htime : c.transform = .time := by cases hc; rfl
  have hdomain : c.domain = [Float.ofInt 86400000, Float.ofInt 172800000] := by cases hc; decide +kernel
  obtain ⟨hdates, hbounded⟩ := dated_of_ends (by decide) (by decide) hdomain
  have hstray : ¬ (continuous c).StrayTicks 0 := by
    rintro ⟨_, ⟨⟩, ⟨hlog, -⟩ | ⟨-, hstart, hstop, hends, h⟩⟩
    · cases htime.symm.trans hlog
    · rw [hdomain] at hends
      obtain ⟨hlo, hhi : Float.ofInt 172800000 = _⟩ := Prod.mk.inj (Option.some.inj hends)
      obtain rfl := ofInt_injective (InDates.isSmall (by decide)) hstart.isSmall hlo
      obtain rfl := ofInt_injective (InDates.isSmall (by decide)) hstop.isSmall hhi
      refine TimeInterval.not_strayBoundaries_within (n := 1970) ?_ ?_ ?_ ?_ h
      all_goals decide +kernel
  have hargs : requestedCount [.number 0] = 0 := by decide +kernel
  obtain ⟨hvalues, hmethod⟩ := no_ticks_iff (hasTicks_continuous c) hdates hbounded
    (.inr (show (0 : Float) ≤ 0 by decide))
  exact ⟨c, hc, hvalues.2 hstray, (hmethod _ hargs (by decide)).2 hstray⟩

/-- A time scale over the first three milliseconds of 1970 has ticks for a count of minus one. -/
theorem ticks_of_negative_count :
    ∃ c, Scale.run .time [numberArray [0, 3], numberArray [0, 1]] [] = .ok (continuous c) ∧
      c.domain = [0, 3] ∧ (-1 : Float) ≤ 0 ∧ (continuous c).axisValues (-1) ≠ .ok [] ∧
      ((continuous c).call .ticks [.number (-1)]).run ≠ .ok (.ok (continuous c, .array [])) := by
  obtain ⟨c, hc⟩ : ∃ c, Scale.run .time [numberArray [0, 3], numberArray [0, 1]] [] = .ok (continuous c) :=
    ⟨_, rfl⟩
  have htime : c.transform = .time := by cases hc; rfl
  have hdomain : c.domain = [0, 3] := by cases hc; decide +kernel
  have hends : endsOf? c.domain = some (Float.ofInt 0, Float.ofInt 3) := by
    rw [hdomain]
    decide +kernel
  have hcount : Meaningless (-1) := .inr (by decide)
  obtain ⟨hdates, hbounded⟩ := dated_of_ends (by decide) (by decide)
    (hdomain.trans (by decide +kernel : _ = [Float.ofInt 0, Float.ofInt 3]))
  have hstray : (continuous c).StrayTicks (-1) := ⟨c, rfl, .boundaries htime (by decide) (by decide) hends
    (TimeInterval.strayBoundaries_epoch hcount (by decide) (by decide) (by decide))⟩
  have hkind : (continuous c).kind.hasTicks = true := hasTicks_continuous c
  have hvalues : (continuous c).axisValues (-1) ≠ .ok [] := fun h =>
    (axisValues_eq_nil_iff hcount hkind hdates hbounded).1 h hstray
  have hargs : countArgument [.number (-1)] = .ok (-1) := by decide +kernel
  exact ⟨c, hc, hdomain, by decide, hvalues, fun h => hvalues ((call_ticks_eq_nil_iff hkind hargs).1 h)⟩

end Scale

end ChartTemplate
