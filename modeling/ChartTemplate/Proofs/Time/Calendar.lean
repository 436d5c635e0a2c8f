import Mathlib
import ChartTemplate.Time.Calendar

/-!
# Days and dates

The date that `Date.ofDays` gives for a day is a date of the calendar (`Date.ofParts?_ofDays`), and
`Date.toDays` numbers it as the day it was made from (`Date.toDays_ofDays`).
-/

namespace ChartTemplate

namespace Date

/-- The number of days in the first years of an era. Years are counted from March, so that a leap day
is the last of its year. -/
def daysBefore (y : ℕ) : ℕ := 365 * y + y / 4 - y / 100 + y / 400

theorem daysBefore_le_lt {doe e q l y : ℕ} (hdoe : doe < 146097) (he : e = doe / 1460)
    (hq : q = doe / 36524) (hl : l = doe / 146096) (hy : y = (doe - e + q - l) / 365) :
    y < 400 ∧ daysBefore y ≤ doe ∧ doe < daysBefore (y + 1) := by
  unfold daysBefore
  by_cases hlast : doe = 146096
  · subst hlast
    omega
  have hl : l = 0 := by omega
  subst hl
  have hqe : q ≤ e := by omega
  have hfour : y / 4 ≤ e ∧ e ≤ (y + 1) / 4 := by omega
  have hdays : 36499 * q ≤ doe - e := by omega
  have hcentury : q = y / 100 := by omega
  have hera : y < 400 := by omega
  refine ⟨hera, by omega, ?_⟩
  by_cases hnext : (y + 1) / 100 = q
  · omega
  · have hturn : y + 1 = 100 * (q + 1) := by omega
    omega

theorem daysBefore_succ_le (y : ℕ) : daysBefore (y + 1) ≤ daysBefore y + 366 := by
  unfold daysBefore
  omega

/-- How `ofDays` counts: an era of 400 years, a year of it, a day of that year and its month. -/
theorem exists_ofDays (n : ℤ) : ∃ (era : ℤ) (y doy m : ℕ),
    n + 719468 = 146097 * era + (daysBefore y + doy : ℕ) ∧ y < 400 ∧
      daysBefore y + doy < daysBefore (y + 1) ∧ m = (5 * doy + 2) / 153 ∧
      ofDays n =
        { year := y + era * 400 + if 10 ≤ m then 1 else 0
          month := if m < 10 then m + 3 else m - 9
          day := doy - (153 * m + 2) / 5 + 1 } := by
  obtain ⟨doe, hdoe⟩ : ∃ doe : ℕ, (n + 719468) % 146097 = doe := Int.eq_ofNat_of_zero_le (by omega)
  have hlt : doe < 146097 := by omega
  obtain ⟨y, hy⟩ : ∃ y, y = (doe - doe / 1460 + doe / 36524 - doe / 146096) / 365 := ⟨_, rfl⟩
  obtain ⟨hlast, hfirst, hnext⟩ := daysBefore_le_lt hlt rfl rfl rfl hy
  have hdays : daysBefore y = 365 * y + y / 4 - y / 100 := by
    rw [daysBefore, Nat.div_eq_of_lt hlast, Nat.add_zero]
  obtain ⟨doy, hdoy⟩ : ∃ doy, doe = daysBefore y + doy := Nat.exists_eq_add_of_le hfirst
  have hdoy' : doe - (365 * y + y / 4 - y / 100) = doy := by
    rw [← hdays, hdoy, Nat.add_sub_cancel_left]
  have hlength := daysBefore_succ_le y
  refine ⟨(n + 719468) / 146097, y, doy, _, by omega, hlast, by omega, rfl, ?_⟩
  unfold ofDays
  dsimp only
  rw [hdoe, Int.toNat_natCast, ← hy, hdoy']
  -- January and February belong to the next year.
  have hnext : (if (5 * doy + 2) / 153 < 10 then (5 * doy + 2) / 153 + 3 else (5 * doy + 2) / 153 - 9) ≤ 2
      ↔ 10 ≤ (5 * doy + 2) / 153 := by split <;> omega
  simp only [hnext]

/-- **The day of a date** that was made from a day. -/
theorem toDays_ofDays (n : ℤ) : (ofDays n).toDays = n := by
  obtain ⟨era, y, doy, m, hn, hy, hdoy, hm, heq⟩ := exists_ofDays n
  have hlength := daysBefore_succ_le y
  have hstart : (153 * m + 2) / 5 ≤ doy := by omega
  have hyear : 365 * ((y : ℤ) + era * 400) + (y + era * 400) / 4 - (y + era * 400) / 100 +
      (y + era * 400) / 400 = daysBefore y + 146097 * era := by
    unfold daysBefore
    omega
  rw [heq, toDays]
  dsimp only
  by_cases h : m < 10
  · have hmonth : ¬ m + 3 ≤ 2 := by omega
    have hmarch : (m + 3 + 9) % 12 = m := by omega
    rw [if_pos h, if_neg hmonth, if_neg (Nat.not_le.mpr h), hmarch, Int.add_zero]
    omega
  · have hmonth : m - 9 ≤ 2 := by omega
    have hmarch : (m - 9 + 9) % 12 = m := by omega
    rw [if_neg h, if_pos hmonth, if_pos (Nat.not_lt.mp h), hmarch, Int.add_sub_cancel]
    omega

theorem isLeapYear_of_daysBefore {y : ℕ} (h : daysBefore y + 365 < daysBefore (y + 1)) (era : ℤ) :
    isLeapYear (y + era * 400 + 1) = true := by
  unfold daysBefore at h
  have hfour : (y + 1) % 4 = 0 := by omega
  have hcentury : (y + 1) % 100 ≠ 0 ∨ (y + 1) % 400 = 0 := by omega
  have hfour : ((y : ℤ) + era * 400 + 1) % 4 = 0 := by omega
  have hcentury : ((y : ℤ) + era * 400 + 1) % 100 ≠ 0 ∨ ((y : ℤ) + era * 400 + 1) % 400 = 0 := by omega
  simp only [isLeapYear, Bool.and_eq_true, Bool.or_eq_true, beq_iff_eq, bne_iff_ne]
  exact ⟨hfour, hcentury⟩

theorem day_le_daysInMonth {y doy m : ℕ} (hdoy : daysBefore y + doy < daysBefore (y + 1))
    (hm : m = (5 * doy + 2) / 153) (era : ℤ) :
    doy - (153 * m + 2) / 5 + 1 ≤
      daysInMonth (y + era * 400 + if 10 ≤ m then 1 else 0) (if m < 10 then m + 3 else m - 9) := by
  have hlength := daysBefore_succ_le y
  have hle : m < 12 := by omega
  by_cases hfebruary : m = 11
  · subst hfebruary
    show _ ≤ if isLeapYear (y + era * 400 + 1) then 29 else 28
    by_cases hlast : doy = 365
    · rw [if_pos (isLeapYear_of_daysBefore (hlast ▸ hdoy) era)]
      omega
    · split <;> omega
  · have hle : m < 11 := by omega
    interval_cases m <;> simp [daysInMonth] <;> omega

theorem year_mem {n era : ℤ} {y doy m : ℕ} (hfirst : (Date.mk minYear 1 1).toDays ≤ n)
    (hlast : n ≤ (Date.mk maxYear 12 31).toDays)
    (hn : n + 719468 = 146097 * era + (daysBefore y + doy : ℕ)) (hy : y < 400)
    (hdoy : daysBefore y + doy < daysBefore (y + 1)) (hm : m = (5 * doy + 2) / 153) :
    minYear ≤ y + era * 400 + (if 10 ≤ m then 1 else 0) ∧
      y + era * 400 + (if 10 ≤ m then 1 else 0) ≤ maxYear := by
  have hmin : (Date.mk minYear 1 1).toDays = -96465292 := by decide
  have hmax : (Date.mk maxYear 12 31).toDays = 95026236 := by decide
  have hlength := daysBefore_succ_le y
  rw [hmin] at hfirst
  rw [hmax] at hlast
  unfold daysBefore at hn hdoy hlength
  unfold minYear maxYear
  rcases eq_or_ne era (-656) with rfl | hfirst
  · rcases lt_trichotomy y 256 with h | rfl | h <;> split <;> omega
  rcases eq_or_ne era 655 with rfl | hlast
  · rcases lt_trichotomy y 142 with h | rfl | h <;> split <;> omega
  · split <;> omega

/-- **The date of a day** is a date of the calendar, if its year is one that dates may have. -/
theorem ofParts?_ofDays {n : ℤ} (hfirst : (Date.mk minYear 1 1).toDays ≤ n)
    (hlast : n ≤ (Date.mk maxYear 12 31).toDays) :
    ofParts? (ofDays n).year (ofDays n).month (ofDays n).day = some (ofDays n) := by
  obtain ⟨era, y, doy, m, hn, hy, hdoy, hm, heq⟩ := exists_ofDays n
  have hday := day_le_daysInMonth hdoy hm era
  obtain ⟨hmin, hmax⟩ := year_mem hfirst hlast hn hy hdoy hm
  have hlength := daysBefore_succ_le y
  rw [heq]
  refine if_pos ⟨hmin, hmax, ?_, ?_, Nat.succ_pos _, hday⟩
  · show 1 ≤ if m < 10 then m + 3 else m - 9
    split <;> omega
  · show (if m < 10 then m + 3 else m - 9) ≤ 12
    split <;> omega

end Date

end ChartTemplate
