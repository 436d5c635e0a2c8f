import ChartTemplate.Proofs.Time.Calendar
import Mathlib.Order.SuccPred.Archimedean

/-!
# Months in a row

Months are numbered through from January of year zero. Each starts where the one before it ends
(`Date.monthStart_succ`), so that a day lies in exactly one of them, and a date of the calendar is told
by its day (`Date.ofDays_toDays`).
-/

namespace ChartTemplate

namespace Date

structure Valid (d : Date) : Prop where
  one_le_month : 1 ≤ d.month
  month_le : d.month ≤ 12
  one_le_day : 1 ≤ d.day
  day_le : d.day ≤ daysInMonth d.year d.month

theorem valid_ofDays (n : ℤ) : (ofDays n).Valid := by
  obtain ⟨era, y, doy, m, hn, hy, hdoy, hm, heq⟩ := exists_ofDays n
  have hlength := daysBefore_succ_le y
  have hle : m < 12 := by omega
  rw [heq]
  refine ⟨?_, ?_, Nat.succ_pos _, day_le_daysInMonth hdoy hm era⟩
  · show 1 ≤ if m < 10 then m + 3 else m - 9
    split <;> omega
  · show (if m < 10 then m + 3 else m - 9) ≤ 12
    split <;> omega

theorem ofParts?_of_valid {d : Date} (h : d.Valid) (hmin : minYear ≤ d.year) (hmax : d.year ≤ maxYear) :
    ofParts? d.year d.month d.day = some d :=
  if_pos ⟨hmin, hmax, h.one_le_month, h.month_le, h.one_le_day, h.day_le⟩

theorem one_le_daysInMonth (y : ℤ) (m : ℕ) : 1 ≤ daysInMonth y m := by
  unfold daysInMonth
  split
  · split <;> omega
  · split <;> omega

theorem daysInMonth_le (y : ℤ) (m : ℕ) : daysInMonth y m ≤ 31 := by
  unfold daysInMonth
  split
  · split <;> omega
  · split <;> omega

/-- The number of the month in which a date lies, January of year zero being the month zero. -/
def monthIndex (d : Date) : ℤ :=
  d.year * 12 + (d.month - 1 : ℕ)

def ofMonth (n : ℤ) : Date :=
  ⟨n / 12, (n % 12).toNat + 1, 1⟩

theorem valid_ofMonth (n : ℤ) : (ofMonth n).Valid := by
  refine ⟨?_, ?_, Nat.le_refl 1, one_le_daysInMonth _ _⟩
  · show 1 ≤ (n % 12).toNat + 1
    omega
  · show (n % 12).toNat + 1 ≤ 12
    omega

theorem monthIndex_ofMonth (n : ℤ) : (ofMonth n).monthIndex = n := by
  simp only [ofMonth, monthIndex]
  omega

def monthStart (n : ℤ) : ℤ :=
  (ofMonth n).toDays

theorem ofMonth_monthIndex {d : Date} (h : d.Valid) : ofMonth d.monthIndex = ⟨d.year, d.month, 1⟩ := by
  have hmonth := h.one_le_month
  have hle := h.month_le
  have hyear : (d.year * 12 + (d.month - 1 : ℕ)) / 12 = d.year := by omega
  have hmonth : ((d.year * 12 + (d.month - 1 : ℕ)) % 12).toNat + 1 = d.month := by omega
  rw [ofMonth, monthIndex, hyear, hmonth]

theorem monthIndex_mem {d : Date} (h : d.Valid) :
    12 * d.year ≤ d.monthIndex ∧ d.monthIndex + 1 ≤ 12 * (d.year + 1) := by
  have hone := h.one_le_month
  have hle := h.month_le
  unfold monthIndex
  omega

theorem toDays_eq {d : Date} (h : d.Valid) : d.toDays = monthStart d.monthIndex + (d.day - 1 : ℕ) := by
  have hday := h.one_le_day
  rw [monthStart, ofMonth_monthIndex h, toDays, toDays]
  dsimp only
  omega

theorem isLeapYear_iff (y : ℤ) : isLeapYear y = true ↔ y % 4 = 0 ∧ (y % 100 ≠ 0 ∨ y % 400 = 0) := by
  simp [isLeapYear]

theorem monthStart_succ (n : ℤ) :
    monthStart (n + 1) = monthStart n + daysInMonth (ofMonth n).year (ofMonth n).month := by
  obtain ⟨y, m, hm, rfl⟩ : ∃ (y : ℤ) (m : ℕ), m < 12 ∧ n = 12 * y + m :=
    ⟨n / 12, (n % 12).toNat, by omega, by omega⟩
  have hyear : (12 * y + m) / 12 = y := by omega
  have hmonth : ((12 * y + m) % 12).toNat = m := by omega
  have hleap := isLeapYear_iff y
  by_cases hlast : m = 11
  · subst hlast
    have hyear' : (12 * y + (11 : ℕ) + 1) / 12 = y + 1 := by omega
    have hmonth' : ((12 * y + (11 : ℕ) + 1) % 12).toNat = 0 := by omega
    simp only [monthStart, ofMonth, toDays, hyear, hmonth, hyear', hmonth', daysInMonth]
    simp
    omega
  · have hyear' : (12 * y + m + 1) / 12 = y := by omega
    have hmonth' : ((12 * y + m + 1) % 12).toNat = m + 1 := by omega
    simp only [monthStart, ofMonth, toDays, hyear, hmonth, hyear', hmonth']
    by_cases hfebruary : m = 1
    · subst hfebruary
      simp [daysInMonth]
      split <;> simp_all <;> omega
    · interval_cases m <;> simp [daysInMonth] at * <;> omega

theorem strictMono_monthStart : StrictMono monthStart := by
  refine strictMono_int_of_lt_succ fun n => ?_
  have hlength := one_le_daysInMonth (ofMonth n).year (ofMonth n).month
  rw [monthStart_succ]
  omega

theorem monthStart_monthIndex_le {d : Date} (h : d.Valid) : monthStart d.monthIndex ≤ d.toDays := by
  rw [toDays_eq h]
  omega

theorem toDays_lt_monthStart_succ {d : Date} (h : d.Valid) : d.toDays < monthStart (d.monthIndex + 1) := by
  have hday := h.one_le_day
  have hle := h.day_le
  rw [monthStart_succ, ofMonth_monthIndex h, toDays_eq h]
  dsimp only
  omega

/-- **The date of a day** is the only date of the calendar with that day. -/
theorem ofDays_toDays {d : Date} (h : d.Valid) : ofDays d.toDays = d := by
  have hvalid := valid_ofDays d.toDays
  have hdays := toDays_ofDays d.toDays
  generalize ofDays d.toDays = d' at hvalid hdays
  have hindex : d'.monthIndex = d.monthIndex := by
    have hle := monthStart_monthIndex_le h
    have hlt := toDays_lt_monthStart_succ h
    have hle' := monthStart_monthIndex_le hvalid
    have hlt' := toDays_lt_monthStart_succ hvalid
    have hnext := strictMono_monthStart.lt_iff_lt.1 (hle.trans_lt (hdays ▸ hlt'))
    have hnext' := strictMono_monthStart.lt_iff_lt.1 ((hdays ▸ hle').trans_lt hlt)
    omega
  have hmonth : (⟨d'.year, d'.month, 1⟩ : Date) = ⟨d.year, d.month, 1⟩ := by
    rw [← ofMonth_monthIndex hvalid, hindex, ofMonth_monthIndex h]
  have hday : d'.day = d.day := by
    have heq := toDays_eq hvalid
    have heq' := toDays_eq h
    have hone := h.one_le_day
    have hone' := hvalid.one_le_day
    rw [hindex] at heq
    omega
  obtain ⟨year, month, day⟩ := d
  obtain ⟨year', month', day'⟩ := d'
  cases hmonth
  cases hday
  rfl

end Date

end ChartTemplate
