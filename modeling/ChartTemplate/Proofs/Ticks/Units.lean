import ChartTemplate.Proofs.Time.Instants
import ChartTemplate.Proofs.Time.Weeks

/-!
# Units in a row

The units of one kind follow each other without a gap. Numbered through, they start at the milliseconds
`TimeUnit.start`, and each instant lies in the unit `TimeUnit.index`. Everything that is done with a unit
is told by these numbers: the start of the unit of an instant (`TimeInterval.floorUnit_atMillis`), the
start of the unit some units later (`TimeInterval.offsetUnit?_start`) and the number that the step divides
(`TimeInterval.unitNumber_start`).
-/

namespace ChartTemplate

open Instant (InDates atMillis ofMillis?)

namespace TimeUnit

/-- The milliseconds at which the `n`th unit starts. Units that are lengths of time, and months and
years, are counted from the one that starts in 1970 or with year zero; weeks from the first Sunday of
1970. -/
def start (u : TimeUnit) (n : ℤ) : ℤ :=
  match u with
  | .millisecond => n
  | .second => 1000 * n
  | .minute => 60000 * n
  | .hour => 3600000 * n
  | .day => 86400000 * n
  | .week => 86400000 * (7 * n + 3)
  | .month => 86400000 * Date.monthStart n
  | .year => 86400000 * Date.monthStart (12 * n)

/-- Which unit holds an instant. -/
def index (u : TimeUnit) (ms : ℤ) : ℤ :=
  match u with
  | .millisecond => ms
  | .second => ms / 1000
  | .minute => ms / 60000
  | .hour => ms / 3600000
  | .day => ms / 86400000
  | .week => (ms / 86400000 - 3) / 7
  | .month => (Date.ofDays (ms / 86400000)).monthIndex
  | .year => (Date.ofDays (ms / 86400000)).year

/-- The number that the `n`th unit has among those of a larger one. Weeks, years and milliseconds have
no larger one. -/
def number (u : TimeUnit) (n : ℤ) : ℤ :=
  match u with
  | .second | .minute => n % 60
  | .hour => n % 24
  | .day => ((Date.ofDays n).day - 1 : ℕ)
  | .month => n % 12
  | .millisecond | .week | .year => n

theorem strictMono_start (u : TimeUnit) : StrictMono u.start := by
  refine strictMono_int_of_lt_succ fun n => ?_
  have hmonth := Date.strictMono_monthStart (show n < n + 1 by omega)
  have hyear := Date.strictMono_monthStart (show 12 * n < 12 * (n + 1) by omega)
  cases u <;> simp only [start] <;> omega

theorem start_index_le (u : TimeUnit) (ms : ℤ) : u.start (u.index ms) ≤ ms := by
  have hvalid := Date.valid_ofDays (ms / 86400000)
  have hday := Date.toDays_ofDays (ms / 86400000)
  have hmonth := Date.monthStart_monthIndex_le hvalid
  cases u with
  | month =>
    simp only [start, index]
    omega
  | year =>
    have hyear := Date.strictMono_monthStart.monotone (Date.monthIndex_mem hvalid).1
    simp only [start, index]
    omega
  | _ =>
    simp only [start, index]
    omega

theorem lt_start_index_succ (u : TimeUnit) (ms : ℤ) : ms < u.start (u.index ms + 1) := by
  have hvalid := Date.valid_ofDays (ms / 86400000)
  have hday := Date.toDays_ofDays (ms / 86400000)
  have hmonth := Date.toDays_lt_monthStart_succ hvalid
  cases u with
  | month =>
    simp only [start, index]
    omega
  | year =>
    have hyear := Date.strictMono_monthStart.monotone (Date.monthIndex_mem hvalid).2
    simp only [start, index]
    omega
  | _ =>
    simp only [start, index]
    omega

theorem start_le_iff (u : TimeUnit) (n ms : ℤ) : u.start n ≤ ms ↔ n ≤ u.index ms := by
  constructor
  · intro h
    have hlt := u.strictMono_start.lt_iff_lt.1 (h.trans_lt (u.lt_start_index_succ ms))
    omega
  · intro h
    exact (u.strictMono_start.monotone h).trans (u.start_index_le ms)

theorem index_start (u : TimeUnit) (n : ℤ) : u.index (u.start n) = n := by
  refine le_antisymm ?_ ((u.start_le_iff n _).1 le_rfl)
  exact u.strictMono_start.le_iff_le.1 (u.start_index_le _)

theorem inDates_start_between {u : TimeUnit} {a b c : ℤ} (ha : InDates (u.start a)) (hc : InDates (u.start c))
    (hab : a ≤ b) (hbc : b ≤ c) : InDates (u.start b) :=
  ha.between hc (u.strictMono_start.monotone hab) (u.strictMono_start.monotone hbc)

/-- The start of a unit may have no date only for a week. -/
theorem inDates_start_iff {ms : ℤ} (h : InDates ms) (u : TimeUnit) :
    InDates (u.start (u.index ms)) ↔ ¬ (u = .week ∧ ms / 86400000 < firstSunday.toDays) := by
  have hsunday : firstSunday.toDays = -96465289 := by decide
  have hdate := Date.toDays_ofDays (ms / 86400000)
  have hvalid := Date.valid_ofDays (ms / 86400000)
  rw [InDates, ← hdate] at h
  have hyear := (Date.inRange_toDays_iff hvalid).1 h
  have hfirst (n : ℤ) (hn : (Date.ofMonth n).year = (Date.ofDays (ms / 86400000)).year) :
      InDates (86400000 * Date.monthStart n) := by
    have hday : 86400000 * Date.monthStart n / 86400000 = (Date.ofMonth n).toDays := by
      unfold Date.monthStart
      omega
    rw [InDates, hday, Date.inRange_toDays_iff (Date.valid_ofMonth n), hn]
    exact hyear
  rw [hsunday]
  cases u with
  | month =>
    refine iff_of_true (hfirst _ ?_) (by simp)
    rw [index, Date.ofMonth_monthIndex hvalid]
  | year =>
    refine iff_of_true (hfirst _ ?_) (by simp)
    simp only [index, Date.ofMonth]
    omega
  | week =>
    rw [hdate, Date.inRange_iff] at h
    rw [InDates, Date.inRange_iff]
    simp only [start, index, true_and]
    omega
  | _ =>
    rw [hdate, Date.inRange_iff] at h
    rw [InDates, Date.inRange_iff]
    simp only [start, index, reduceCtorEq, false_and, not_false_eq_true, iff_true]
    omega

end TimeUnit

namespace TimeInterval

/-! ## Units of instants -/

theorem date_atMillis (ms : ℤ) : (atMillis ms).date = Date.ofDays (ms / 86400000) := by
  rw [Instant.date, Instant.dayNumber_atMillis]

theorem date_monthStart (n : ℤ) : (atMillis (86400000 * Date.monthStart n)).date = Date.ofMonth n := by
  have hday : 86400000 * Date.monthStart n / 86400000 = (Date.ofMonth n).toDays := by
    unfold Date.monthStart
    omega
  rw [date_atMillis, hday, Date.ofDays_toDays (Date.valid_ofMonth n)]

theorem floorUnit_atMillis {u : TimeUnit} {ms : ℤ} (h : InDates ms) (hs : InDates (u.start (u.index ms))) :
    floorUnit u (atMillis ms) = .ok (some (atMillis (u.start (u.index ms)))) := by
  have hvalid := Date.valid_ofDays (ms / 86400000)
  have hdate := Date.toDays_ofDays (ms / 86400000)
  have hstart := Instant.ofMillis?_of_inDates hs
  unfold floorUnit
  simp only [truncate?, Instant.millis_atMillis, date_atMillis]
  cases u with
  | millisecond => rfl
  | second | minute | hour =>
    refine (congrArg Except.ok ?_).trans (congrArg Except.ok hstart)
    rw [TimeUnit.start, mul_comm]
    rfl
  | day =>
    rw [midnight?_of_valid hvalid, hdate]
    exact congrArg Except.ok hstart
  | week =>
    have hday : InDates (86400000 * (ms / 86400000)) := by
      have hsame : 86400000 * (ms / 86400000) / 86400000 = ms / 86400000 := by omega
      rw [InDates, hsame]
      exact h
    have hweekday : ((Date.ofDays (ms / 86400000)).weekday : ℤ) = (ms / 86400000 + 4) % 7 := by
      rw [Date.weekday, hdate, Date.weekdayOfDays, Int.toNat_of_nonneg (Int.emod_nonneg _ (by decide))]
    have hsunday : 86400000 * (ms / 86400000) + 1000 * (-86400 * ((ms / 86400000 + 4) % 7)) =
        TimeUnit.week.start (TimeUnit.week.index ms) := by
      simp only [TimeUnit.start, TimeUnit.index]
      omega
    rw [midnight?_of_valid hvalid, hdate, Instant.ofMillis?_of_inDates hday]
    dsimp only
    rw [shift?_atMillis, hweekday, hsunday, hstart]
    rfl
  | month =>
    have hfirst := midnight?_of_valid (Date.valid_ofMonth (Date.ofDays (ms / 86400000)).monthIndex)
    rw [Date.ofMonth_monthIndex hvalid] at hfirst
    refine (congrArg Except.ok ?_).trans (congrArg Except.ok hstart)
    rw [hfirst, ← Date.ofMonth_monthIndex hvalid]
    rfl
  | year =>
    have hfirst := midnight?_ofMonth (12 * (Date.ofDays (ms / 86400000)).year)
    have hyear : 12 * (Date.ofDays (ms / 86400000)).year / 12 = (Date.ofDays (ms / 86400000)).year := by
      omega
    have hmonth : 12 * (Date.ofDays (ms / 86400000)).year % 12 = 0 := by omega
    rw [hyear, hmonth] at hfirst
    exact (congrArg Except.ok hfirst).trans (congrArg Except.ok hstart)

theorem offsetUnit?_start (u : TimeUnit) (n k : ℤ) :
    offsetUnit? u (atMillis (u.start n)) k = ofMillis? (u.start (n + k)) := by
  unfold offsetUnit?
  cases u with
  | millisecond =>
    dsimp only
    rw [Instant.millis_atMillis]
    rfl
  | second | minute | hour | day | week =>
    dsimp only
    rw [shift?_atMillis]
    congr 1
    simp only [TimeUnit.start]
    ring
  | month =>
    dsimp only [TimeUnit.start]
    rw [date_monthStart]
    have hindex : (Date.ofMonth n).year * 12 + ((Date.ofMonth n).month - 1 : ℕ) = n :=
      Date.monthIndex_ofMonth n
    rw [hindex, midnight?_ofMonth]
  | year =>
    dsimp only [TimeUnit.start]
    have hyear : (Date.ofMonth (12 * n)).year = n := by
      show 12 * n / 12 = n
      omega
    have hfirst := midnight?_ofMonth (12 * (n + k))
    have hnext : 12 * (n + k) / 12 = n + k := by omega
    have hjanuary : 12 * (n + k) % 12 = 0 := by omega
    rw [hnext, hjanuary] at hfirst
    rw [date_monthStart, hyear]
    exact hfirst

theorem unitNumber_start (u : TimeUnit) (n : ℤ) :
    unitNumber u (atMillis (u.start n)) = u.number n := by
  cases u with
  | millisecond => exact Instant.millis_atMillis n
  | second | minute | hour =>
    simp only [unitNumber, TimeUnit.start, TimeUnit.number, Instant.second, Instant.minute, Instant.hour,
      Instant.secondOfDay, atMillis]
    omega
  | day =>
    have hday : 86400000 * n / 86400000 = n := by omega
    simp only [unitNumber, TimeUnit.start, TimeUnit.number, date_atMillis, hday]
  | week =>
    simp only [unitNumber, TimeUnit.start, TimeUnit.number, Instant.millis_atMillis]
    omega
  | month =>
    simp only [unitNumber, TimeUnit.start, TimeUnit.number, date_monthStart, Date.ofMonth]
    omega
  | year =>
    simp only [unitNumber, TimeUnit.start, TimeUnit.number, date_monthStart, Date.ofMonth]
    omega

end TimeInterval

end ChartTemplate
