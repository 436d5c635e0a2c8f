import ChartTemplate.Proofs.Numeric.Integers
import ChartTemplate.Proofs.Time.Months
import ChartTemplate.Ticks.Time

/-!
# Instants of whole milliseconds

Milliseconds that lie on a day that dates may have are an instant, and no others are
(`Instant.ofMillis?_eq`). Midnight of a date, seconds that are added and milliseconds that are cut off
are instants of this kind.
-/

namespace ChartTemplate

namespace Date

def InRange (day : ℤ) : Prop :=
  (Date.mk minYear 1 1).toDays ≤ day ∧ day ≤ (Date.mk maxYear 12 31).toDays

instance (day : ℤ) : Decidable (InRange day) :=
  inferInstanceAs (Decidable (_ ∧ _))

theorem inRange_iff (day : ℤ) : InRange day ↔ -96465292 ≤ day ∧ day ≤ 95026236 := by
  have hfirst : (Date.mk minYear 1 1).toDays = -96465292 := by decide
  have hlast : (Date.mk maxYear 12 31).toDays = 95026236 := by decide
  rw [InRange, hfirst, hlast]

theorem InRange.between {a b c : ℤ} (ha : InRange a) (hc : InRange c) (hab : a ≤ b) (hbc : b ≤ c) :
    InRange b := by
  rw [inRange_iff] at *
  omega

theorem inRange_toDays_iff {d : Date} (h : d.Valid) :
    InRange d.toDays ↔ minYear ≤ d.year ∧ d.year ≤ maxYear := by
  have hle := monthStart_monthIndex_le h
  have hlt := toDays_lt_monthStart_succ h
  have hfirst : monthStart (12 * minYear) = -96465292 := by decide
  have hlast : monthStart (12 * (maxYear + 1)) = 95026237 := by decide
  obtain ⟨hyear, hnext⟩ := monthIndex_mem h
  rw [inRange_iff]
  constructor
  · rintro ⟨hmin, hmax⟩
    have hmin : 12 * minYear < d.monthIndex + 1 := strictMono_monthStart.lt_iff_lt.1 (by omega)
    have hmax : d.monthIndex < 12 * (maxYear + 1) := strictMono_monthStart.lt_iff_lt.1 (by omega)
    omega
  · rintro ⟨hmin, hmax⟩
    have hmin : monthStart (12 * minYear) ≤ monthStart d.monthIndex :=
      strictMono_monthStart.le_iff_le.2 (by omega)
    have hmax : monthStart (d.monthIndex + 1) ≤ monthStart (12 * (maxYear + 1)) :=
      strictMono_monthStart.le_iff_le.2 (by omega)
    omega

end Date

namespace Instant

/-- The milliseconds lie on a day that dates may have. -/
def InDates (ms : ℤ) : Prop :=
  Date.InRange (ms / 86400000)

instance (ms : ℤ) : Decidable (InDates ms) :=
  inferInstanceAs (Decidable (Date.InRange _))

theorem InDates.between {a b c : ℤ} (ha : InDates a) (hc : InDates c) (hab : a ≤ b) (hbc : b ≤ c) :
    InDates b :=
  Date.InRange.between ha hc (by omega) (by omega)

theorem InDates.isSmall {ms : ℤ} (h : InDates ms) : IsSmall ms := by
  rw [InDates, Date.inRange_iff] at h
  unfold IsSmall
  omega

def atMillis (ms : ℤ) : Instant :=
  ⟨ms / 1000, (ms % 1000).toNat * 1000000⟩

@[simp]
theorem millis_atMillis (ms : ℤ) : (atMillis ms).millis = ms := by
  simp only [atMillis, millis]
  omega

theorem dayNumber_atMillis (ms : ℤ) : (atMillis ms).dayNumber = ms / 86400000 := by
  simp only [atMillis, dayNumber]
  omega

theorem atMillis_injective : Function.Injective atMillis :=
  Function.LeftInverse.injective millis_atMillis

/-- **Instants of milliseconds.** -/
theorem ofMillis?_eq (ms : ℤ) : ofMillis? ms = if InDates ms then some (atMillis ms) else none := by
  have hday : ms / 1000 / 86400 = ms / 86400000 := by omega
  rw [ofMillis?, ofSeconds?, hday]
  rfl

theorem ofMillis?_of_inDates {ms : ℤ} (h : InDates ms) : ofMillis? ms = some (atMillis ms) := by
  rw [ofMillis?_eq, if_pos h]

theorem ofMillis?_eq_some_iff {ms : ℤ} {t : Instant} :
    ofMillis? ms = some t ↔ InDates ms ∧ atMillis ms = t := by
  rw [ofMillis?_eq]
  split <;> simp [*]

theorem midnight_eq (d : Date) : midnight d = atMillis (86400000 * d.toDays) := by
  have hseconds : 86400000 * d.toDays / 1000 = d.toDays * 86400 := by omega
  have hnanos : 86400000 * d.toDays % 1000 = 0 := by omega
  rw [midnight, atMillis, hseconds, hnanos]
  rfl

theorem toFloat_atMillis (ms : ℤ) : (atMillis ms).toFloat = Float.ofInt ms := by
  rw [toFloat, millis_atMillis]

end Instant

open Instant (InDates atMillis)

theorem instantOf?_ofInt {ms : ℤ} (h : InDates ms) : instantOf? (Float.ofInt ms) = some (atMillis ms) := by
  rw [instantOf?, toInt64Clamped_ofInt h.isSmall, Instant.ofMillis?_of_inDates h]

theorem midnight?_of_valid {d : Date} (h : d.Valid) :
    midnight? d.year d.month d.day = Instant.ofMillis? (86400000 * d.toDays) := by
  have hday : 86400000 * d.toDays / 86400000 = d.toDays := by omega
  have hdates : InDates (86400000 * d.toDays) ↔ minYear ≤ d.year ∧ d.year ≤ maxYear := by
    rw [← Date.inRange_toDays_iff h, Instant.InDates, hday]
  rw [midnight?, Instant.ofMillis?_eq]
  by_cases hyear : minYear ≤ d.year ∧ d.year ≤ maxYear
  · rw [Date.ofParts?_of_valid h hyear.1 hyear.2, if_pos (hdates.2 hyear), Option.map_some,
      Instant.midnight_eq]
  · have hnone : Date.ofParts? d.year d.month d.day = none := by
      unfold Date.ofParts?
      exact if_neg fun hparts => hyear ⟨hparts.1, hparts.2.1⟩
    rw [hnone, if_neg fun h => hyear (hdates.1 h)]
    rfl

theorem midnight?_ofMonth (n : ℤ) :
    midnight? (n / 12) ((n % 12).toNat + 1) 1 = Instant.ofMillis? (86400000 * Date.monthStart n) :=
  midnight?_of_valid (Date.valid_ofMonth n)

theorem shift?_atMillis (ms n : ℤ) :
    TimeInterval.shift? (atMillis ms) n = Instant.ofMillis? (ms + 1000 * n) := by
  have hseconds : (ms + 1000 * n) / 1000 = ms / 1000 + n := by omega
  have hnanos : (ms + 1000 * n) % 1000 = ms % 1000 := by omega
  rw [TimeInterval.shift?, Instant.ofMillis?, hseconds, hnanos]
  rfl

end ChartTemplate
