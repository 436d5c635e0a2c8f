import ChartTemplate.Proofs.Format.Guard
import ChartTemplate.Proofs.Format.Placed
import ChartTemplate.Proofs.Json.Reread
import ChartTemplate.Proofs.Numeric.ReadBack

/-!
# Numbers in units of a thousands prefix

The prefix is chosen by the leading digit of the number rounded to the digits asked for. If the greatest
prefix downward is too great, so that all digits stand behind the point, the number is rounded again to
the digits that are left, and these are put where the first rounding had its leading digit. A text
therefore denotes its rounded number exactly if both have their leading digit in the same place, and is off
by a power of ten otherwise (`prefixedChars_denotes`).
-/

namespace ChartTemplate

/-! ## Rounded numbers -/

section

variable {v : ℚ} {count : ℕ}

theorem abs_rounded_sub_le (v : ℚ) (count : ℕ) :
    |rounded v count - v| ≤ 1 / 2 * 10 ^ (leading v + 1 - count) := by
  have hunit := ten_zpow_pos (leading v + 1 - count)
  have hscale : v * 10 ^ ((count : ℤ) - 1 - leading v) * 10 ^ (leading v + 1 - count) = v := by
    rw [mul_assoc, ← zpow_add₀ (by norm_num),
      show (count : ℤ) - 1 - leading v + (leading v + 1 - count) = 0 by ring, zpow_zero, mul_one]
  unfold rounded
  generalize v * 10 ^ ((count : ℤ) - 1 - leading v) = y at hscale ⊢
  have hfloor : |(⌊y + 1 / 2⌋ : ℚ) - y| ≤ 1 / 2 := by
    have := Int.floor_le (y + 1 / 2)
    have := Int.lt_floor_add_one (y + 1 / 2)
    rw [abs_le]
    constructor <;> linarith
  calc |(⌊y + 1 / 2⌋ : ℚ) * 10 ^ (leading v + 1 - count) - v|
    _ = |((⌊y + 1 / 2⌋ : ℚ) - y) * 10 ^ (leading v + 1 - count)| := by rw [sub_mul, hscale]
    _ = |(⌊y + 1 / 2⌋ : ℚ) - y| * 10 ^ (leading v + 1 - count) := by rw [abs_mul, abs_of_pos hunit]
    _ ≤ 1 / 2 * 10 ^ (leading v + 1 - count) := mul_le_mul_of_nonneg_right hfloor hunit.le

theorem rounded_bounds (hv : 0 < v) (hcount : 0 < count) :
    v / 2 ≤ rounded v count ∧ rounded v count ≤ 3 / 2 * v := by
  have habs := abs_le.1 (abs_rounded_sub_le v count)
  have hunit : (10 : ℚ) ^ (leading v + 1 - count) ≤ v :=
    (zpow_le_zpow_right₀ (by norm_num) (by omega)).trans (ten_zpow_leading_le hv)
  constructor <;> linarith

theorem leading_le_leading_rounded (hv : 0 < v) (hcount : 0 < count) : leading v ≤ leading (rounded v count) := by
  have hpos : 0 < rounded v count := lt_of_lt_of_le (by linarith) (rounded_bounds hv hcount).1
  rw [le_leading_iff hpos, ← round_ten_zpow (show leading v + 1 - count ≤ leading v by omega), rounded,
    show (count : ℤ) - 1 - leading v = -(leading v + 1 - count) by ring]
  refine mul_le_mul_of_nonneg_right (Int.cast_le.2 (Int.floor_mono ?_)) (ten_zpow_pos _).le
  have := mul_le_mul_of_nonneg_right (ten_zpow_leading_le hv) (ten_zpow_pos (-(leading v + 1 - count))).le
  linarith

theorem leading_rounded_le (hv : 0 < v) (hcount : 0 < count) : leading (rounded v count) ≤ leading v + 1 := by
  obtain ⟨hlow, hhigh⟩ := rounded_bounds hv hcount
  have hnext := lt_ten_zpow_leading hv
  have hpos := ten_zpow_pos (leading v + 1)
  refine Int.lt_add_one_iff.1 ((leading_lt_iff (by linarith)).2 ?_)
  rw [zpow_add_one₀ (by norm_num)]
  linarith

theorem within_iff {w : ℚ} (hv : 0 < v) (hlow : v / 2 ≤ w) (hhigh : w ≤ 3 / 2 * v) (k : ℤ) :
    v / 2 ≤ w * 10 ^ k ∧ w * 10 ^ k ≤ 2 * v ↔ k = 0 := by
  constructor
  · rintro ⟨hlow', hhigh'⟩
    by_contra hne
    rcases lt_or_gt_of_ne hne with hneg | hpos
    · have hpow : (10 : ℚ) ^ k ≤ 10 ^ (-1 : ℤ) := zpow_le_zpow_right₀ (by norm_num) (by omega)
      have := mul_le_mul_of_nonneg_left hpow (show 0 ≤ w by linarith)
      norm_num at this
      linarith
    · have hpow : (10 : ℚ) ^ (1 : ℤ) ≤ 10 ^ k := zpow_le_zpow_right₀ (by norm_num) (by omega)
      have := mul_le_mul_of_nonneg_left hpow (show 0 ≤ w by linarith)
      norm_num at this
      linarith
  · rintro rfl
    rw [zpow_zero, mul_one]
    exact ⟨hlow, by linarith⟩

end

/-! ## Leading digits -/

section

variable {x : Float} {count : ℕ}

theorem absValue_pos (hfinite : x.isFinite = true) (hx : 0 < x) : 0 < absValue x := by
  refine lt_of_le_of_ne (magnitude_nonneg _ _) fun hzero => ?_
  have hbeq := (beq_zero_iff hfinite).2 hzero.symm
  rw [lt_iff_rank rfl ((isFinite_iff x).1 hfinite).1, (beq_iff_rank.1 hbeq).2.2] at hx
  exact lt_irrefl _ hx

theorem isLeading_significantDigits (hfinite : x.isFinite = true) (hx : 0 < absValue x) (hcount : 0 < count) :
    (significantDigits x count).IsLeading := by
  obtain ⟨hexpand, hlength, -⟩ := exists_expand hfinite hx (count + guardDigits)
  rw [significantDigits_of_pos hfinite hx]
  exact (Decimal.roundTo_spec hexpand hcount (by omega)).1

theorem Decimal.IsExpansion.isLeading {d : Decimal} (h : d.IsExpansion) (hlead : d.digits.head? ≠ some 0) :
    d.IsLeading := by
  refine ⟨h, ?_⟩
  obtain ⟨digits, e⟩ := d
  cases digits with
  | nil => exact absurd rfl h.ne_nil
  | cons a ds =>
    have ha : 1 ≤ a := Nat.pos_of_ne_zero fun hzero => hlead (congrArg some hzero)
    show 10 ^ ((a :: ds).length - 1) ≤ ofDigits (a :: ds)
    rw [ofDigits_cons, List.length_cons, Nat.add_sub_cancel]
    exact (Nat.le_mul_of_pos_left _ ha).trans (Nat.le_add_right _ _)

theorem isLeading_shortest (tie : Tie) (hfinite : x.isFinite = true) (hx : 0 < absValue x) :
    (Decimal.shortest tie x).IsLeading := by
  refine (isExpansion_shortest tie x).isLeading ((shortest_lead tie x).resolve_left fun hzero => ?_)
  have hlow := (shortest_bounds tie hfinite (mant_pos_of_absValue hx)).1
  have hvalue : (Decimal.mk [0] 0).value = 0 := by simp [Decimal.value, ofDigits]
  rw [hzero, hvalue] at hlow
  exact absurd (half_pos hx) (not_lt.2 hlow)

/-- The leading digits of a number, rounded or shortest, say where its leading digit is, and denote it
within its half. -/
theorem decimalParts_spec (hfinite : x.isFinite = true) (hx : 0 < absValue x) (hcount : count ≤ 21) :
    (decimalParts x count).value =
        (if count = 0 then (Decimal.shortest .up x).value else rounded (absValue x) count) ∧
      leading (decimalParts x count).value = (decimalParts x count).exponent ∧
      absValue x / 2 ≤ (decimalParts x count).value ∧ (decimalParts x count).value ≤ 3 / 2 * absValue x := by
  unfold decimalParts
  split
  · exact ⟨rfl, (isLeading_shortest .up hfinite hx).leading_value.2,
      shortest_bounds .up hfinite (mant_pos_of_absValue hx)⟩
  · rename_i hne
    have hpos := Nat.pos_of_ne_zero hne
    have hvalue := value_significantDigits hfinite hx hpos hcount
    refine ⟨hvalue, (isLeading_significantDigits hfinite hx hpos).leading_value.2, ?_⟩
    rw [hvalue]
    exact rounded_bounds hx hpos

end

/-! ## Texts in units of a prefix -/

/-- Where the point stands behind the first digit, in units of a prefix. -/
def pointOf (e : ℤ) : ℤ :=
  e - prefixExponent e + 1

theorem pointOf_pos_iff (e : ℤ) : 0 < pointOf e ↔ -24 ≤ e := by
  unfold pointOf prefixExponent
  omega

/-- The digits that are shown: fewer than asked for if none of them stands in front of the point. -/
def unitDigits (x : Float) (precision : ℕ) : Decimal :=
  if 0 < pointOf (decimalParts x precision).exponent then decimalParts x precision
  else decimalParts x (precision + pointOf (decimalParts x precision).exponent - 1).toNat

theorem isExpansion_unitDigits {x : Float} (hfinite : x.isFinite = true) (precision : ℕ) :
    (unitDigits x precision).IsExpansion := by
  unfold unitDigits
  split <;> exact isExpansion_decimalParts hfinite _

theorem prefixedChars_eq {x : Float} (hfinite : x.isFinite = true) (precision : ℕ) :
    prefixedChars x precision =
      (placed (digitChars (unitDigits x precision).digits) (pointOf (decimalParts x precision).exponent),
        prefixExponent (decimalParts x precision).exponent) := by
  have hunit := isExpansion_unitDigits hfinite precision
  have hlength := List.length_pos_iff.2 (isExpansion_decimalParts hfinite precision).chars_ne_nil
  have hlength' := List.length_pos_iff.2 hunit.chars_ne_nil
  unfold prefixedChars
  dsimp only
  rw [← pointOf]
  refine congrArg (·, _) ?_
  by_cases hpos : 0 < pointOf (decimalParts x precision).exponent
  · have hdigits : unitDigits x precision = decimalParts x precision := if_pos hpos
    rw [hdigits, placed]
    generalize digitChars (decimalParts x precision).digits = ds at hlength ⊢
    generalize pointOf (decimalParts x precision).exponent = point at hpos ⊢
    split_ifs <;> try omega
    · rename_i hbehind _
      rw [hbehind, sub_self]
      exact (List.append_nil ds).symm
    · rfl
    · rfl
  · have hdigits : unitDigits x precision =
        decimalParts x (precision + pointOf (decimalParts x precision).exponent - 1).toNat := if_neg hpos
    rw [← hdigits, placed]
    rw [if_neg (by omega), if_neg (by omega), if_neg hpos, if_neg (by omega), if_neg hpos]

/-- The number that a text is to show: the number rounded to the digits asked for, or below `10 ^ -24` to
those that are left of them, or the shortest digits if none are left. -/
def shownNumber (x : Float) (precision : ℕ) (unit : ℤ) : ℚ :=
  let point := leading (rounded (absValue x) precision) - unit + 1
  if 10 ^ (-24 : ℤ) ≤ absValue x then rounded (absValue x) precision
  else if 0 < precision + point - 1 then rounded (absValue x) (precision + point - 1).toNat
  else (Decimal.shortest .up x).value

theorem value_unitDigits {x : Float} (hfinite : x.isFinite = true) (hx : 0 < absValue x) {precision : ℕ}
    (hprecision : 0 < precision) (hle : precision ≤ 21) :
    (unitDigits x precision).value =
      shownNumber x precision (prefixExponent (decimalParts x precision).exponent) := by
  obtain ⟨hvalue, hlead, -⟩ := decimalParts_spec hfinite hx hle
  rw [if_neg hprecision.ne'] at hvalue
  have hpoint := pointOf_pos_iff (decimalParts x precision).exponent
  have hlow := leading_le_leading_rounded hx hprecision
  have hhigh := leading_rounded_le hx hprecision
  unfold shownNumber
  dsimp only
  rw [← hvalue, hlead] at hlow hhigh ⊢
  rw [← pointOf]
  by_cases hsmall : (10 : ℚ) ^ (-24 : ℤ) ≤ absValue x
  · have hreach := (le_leading_iff hx).2 hsmall
    rw [if_pos hsmall, unitDigits, if_pos (hpoint.2 (by omega))]
  · have hbelow := mt (le_leading_iff hx).1 hsmall
    rw [if_neg hsmall, unitDigits]
    by_cases hpos : 0 < pointOf (decimalParts x precision).exponent
    · -- The number was rounded up to the least prefix.
      have hone : pointOf (decimalParts x precision).exponent = 1 := by
        have hexponent : (decimalParts x precision).exponent = -24 := by have := hpoint.1 hpos; omega
        rw [hexponent]
        rfl
      rw [if_pos hpos, hone, if_pos (by omega), hvalue, show (precision + 1 - 1 : ℤ).toNat = precision by omega]
    · obtain ⟨hvalue', -⟩ := decimalParts_spec hfinite hx
        (show (precision + pointOf (decimalParts x precision).exponent - 1).toNat ≤ 21 by omega)
      rw [if_neg hpos, hvalue']
      by_cases hleft : 0 < precision + pointOf (decimalParts x precision).exponent - 1
      · rw [if_neg (by omega), if_pos hleft]
      · rw [if_pos (by omega), if_neg hleft]

/-- The two roundings of a number have their leading digits in the same decade. -/
def SameDecade (x : Float) (precision : ℕ) (unit : ℤ) : Prop :=
  leading (shownNumber x precision unit) = leading (rounded (absValue x) precision)

theorem unitDigits_spec {x : Float} (hfinite : x.isFinite = true) (hx : 0 < absValue x) {precision : ℕ}
    (hle : precision ≤ 21) :
    leading (unitDigits x precision).value = (unitDigits x precision).exponent ∧
      absValue x / 2 ≤ (unitDigits x precision).value ∧
      (unitDigits x precision).value ≤ 3 / 2 * absValue x := by
  unfold unitDigits
  split
  · exact (decimalParts_spec hfinite hx hle).2
  · exact (decimalParts_spec hfinite hx (by omega)).2

theorem sameDecade_iff {x : Float} (hfinite : x.isFinite = true) (hx : 0 < absValue x) {precision : ℕ}
    (hprecision : 0 < precision) (hle : precision ≤ 21) {unit : ℤ}
    (hunit : unit = prefixExponent (leading (rounded (absValue x) precision))) :
    SameDecade x precision unit ↔ (unitDigits x precision).exponent = (decimalParts x precision).exponent := by
  obtain ⟨hvalue, hlead, -⟩ := decimalParts_spec hfinite hx hle
  rw [if_neg hprecision.ne'] at hvalue
  rw [hunit, SameDecade, ← hvalue, hlead, ← value_unitDigits hfinite hx hprecision hle,
    (unitDigits_spec hfinite hx hle).1]

/-- **Labels in units of a prefix** denote, times the prefix, the number that they are to show, moved by the
power of ten that lies between its leading digit and that of the first rounding. They denote that number,
and come within a factor of two of the number itself, exactly if both are in the same decade, as they are
from `10 ^ -24` on. -/
theorem prefixedChars_denotes {x : Float} (hfinite : x.isFinite = true) (hx : 0 < x) {precision : ℕ}
    (hprecision : 0 < precision) (hle : precision ≤ 21) :
    Rounds x.abs (Decimal.shortest .up x).value ∧
    ∃ (text : List Char) (unit : ℤ) (n : ℚ), prefixedChars x precision = (text, unit) ∧ Denotes text n ∧
      unit = prefixExponent (leading (rounded (absValue x) precision)) ∧
      n * 10 ^ unit = shownNumber x precision unit *
        10 ^ (leading (rounded (absValue x) precision) - leading (shownNumber x precision unit)) ∧
      (n * 10 ^ unit = shownNumber x precision unit ↔ SameDecade x precision unit) ∧
      (absValue x / 2 ≤ n * 10 ^ unit ∧ n * 10 ^ unit ≤ 2 * absValue x ↔ SameDecade x precision unit) ∧
      (10 ^ (-24 : ℤ) ≤ absValue x → SameDecade x precision unit) := by
  have hx := absValue_pos hfinite hx
  have hunit := isExpansion_unitDigits hfinite precision
  have hshown := value_unitDigits hfinite hx hprecision hle
  obtain ⟨hvalue, hlead, -⟩ := decimalParts_spec hfinite hx hle
  rw [if_neg hprecision.ne'] at hvalue
  obtain ⟨hlead', hlow, hhigh⟩ := unitDigits_spec hfinite hx hle
  have hdecade := sameDecade_iff hfinite hx hprecision hle rfl
  have hdenotes := hunit.denotes_placed_at (pointOf (decimalParts x precision).exponent)
  refine ⟨rounds_shortest .up hfinite, _, _, _, prefixedChars_eq hfinite precision, hdenotes, ?_⟩
  have hmoved : (unitDigits x precision).value *
        10 ^ (pointOf (decimalParts x precision).exponent - 1 - (unitDigits x precision).exponent) *
      10 ^ prefixExponent (decimalParts x precision).exponent =
      (unitDigits x precision).value *
        10 ^ ((decimalParts x precision).exponent - (unitDigits x precision).exponent) := by
    rw [mul_assoc, ← zpow_add₀ (by norm_num), pointOf]
    congr 2
    ring
  have hwithin := within_iff hx hlow hhigh ((decimalParts x precision).exponent - (unitDigits x precision).exponent)
  rw [sub_eq_zero, eq_comm] at hwithin
  have hlarge (h : 10 ^ (-24 : ℤ) ≤ absValue x) :
      (unitDigits x precision).exponent = (decimalParts x precision).exponent := by
    rw [← hlead', hshown, shownNumber, if_pos h, ← hvalue, hlead]
  rw [← hvalue, hlead] at hdecade ⊢
  rw [hmoved, hdecade, ← hshown, hlead']
  refine ⟨rfl, rfl, ⟨fun heq => hwithin.1 ?_, fun heq => ?_⟩, hwithin, hlarge⟩
  · rw [heq]
    constructor <;> linarith
  · rw [heq, sub_self, zpow_zero, mul_one]

/-- A thousand and some, with three digits, and a number below the least prefix, which has two left of
them and stays in its decade. -/
theorem prefixedChars_denotes_decades :
    (Float.isFinite 1234.5 = true ∧ (0 : Float) < 1234.5 ∧
      ∃ (text : List Char) (unit : ℤ) (n : ℚ), prefixedChars 1234.5 3 = (text, unit) ∧ Denotes text n ∧
        n * 10 ^ unit = rounded (absValue 1234.5) 3) ∧
    Float.isFinite 2.34e-25 = true ∧ (0 : Float) < 2.34e-25 ∧ absValue 2.34e-25 < 10 ^ (-24 : ℤ) ∧
      ∃ (text : List Char) (n : ℚ), prefixedChars 2.34e-25 3 = (text, -24) ∧ Denotes text n ∧
        n * 10 ^ (-24 : ℤ) = shownNumber 2.34e-25 3 (-24) ∧ n * 10 ^ (-24 : ℤ) ≤ 2 * absValue 2.34e-25 := by
  have hfinite : Float.isFinite 1234.5 = true := by decide +kernel
  have hpos : (0 : Float) < 1234.5 := by decide +kernel
  have hfinite' : Float.isFinite 2.34e-25 = true := by decide +kernel
  have hpos' : (0 : Float) < 2.34e-25 := by decide +kernel
  obtain ⟨-, text, unit, n, htext, hdenotes, -, -, hequal, -, hlarge⟩ :=
    prefixedChars_denotes hfinite hpos (show 0 < 3 by decide) (by decide)
  obtain ⟨-, text', unit', n', htext', hdenotes', hunit', -, hequal', hwithin', -⟩ :=
    prefixedChars_denotes hfinite' hpos' (show 0 < 3 by decide) (by decide)
  have hreach : (10 : ℚ) ^ (-24 : ℤ) ≤ absValue 1234.5 := by
    have hparts : FloatParts.ofFloat 1234.5 = ⟨false, 5429388417957888, -42, false⟩ := by decide +kernel
    rw [absValue, hparts, magnitude]
    norm_num
  have hbelow : absValue 2.34e-25 < 10 ^ (-24 : ℤ) := by
    have hparts : FloatParts.ofFloat 2.34e-25 = ⟨false, 5096068727007974, -134, false⟩ := by decide +kernel
    rw [absValue, hparts, magnitude]
    norm_num
  have hsame : SameDecade 2.34e-25 3 unit' :=
    (sameDecade_iff hfinite' (absValue_pos hfinite' hpos') (by decide) (by decide) hunit').2 (by decide +kernel)
  obtain rfl : unit' = -24 := by
    have hdigits : (prefixedChars 2.34e-25 3).2 = -24 := by decide +kernel
    rwa [htext'] at hdigits
  refine ⟨⟨hfinite, hpos, text, unit, n, htext, hdenotes, ?_⟩, hfinite', hpos', hbelow, text', n', htext',
    hdenotes', hequal'.2 hsame, (hwithin'.2 hsame).2⟩
  rw [hequal.2 (hlarge hreach), shownNumber, if_pos hreach]

/-- Below the least prefix, a text may show a tenth of its number: three digits of 0.096 in units of
`10 ^ -24` begin one place further behind than the one digit that is left, which is rounded up. -/
theorem prefixedChars_tenth :
    Float.isFinite 9.6e-26 = true ∧ (0 : Float) < 9.6e-26 ∧
      ∃ n : ℚ, Denotes (prefixedChars 9.6e-26 3).1 n ∧
        n * 10 ^ (prefixedChars 9.6e-26 3).2 ≠ shownNumber 9.6e-26 3 (prefixedChars 9.6e-26 3).2 ∧
        n * 10 ^ (prefixedChars 9.6e-26 3).2 < absValue 9.6e-26 / 2 := by
  have htext : prefixedChars 9.6e-26 3 = ("0.01".toList, -24) := by decide +kernel
  have hdigits : decimalParts 9.6e-26 3 = ⟨[9, 6, 0], -26⟩ := by decide +kernel
  have hfinite : Float.isFinite 9.6e-26 = true := by decide +kernel
  have hvalue : absValue 9.6e-26 = 8362779449448984 * 2 ^ (-136 : ℤ) := by
    have hparts : FloatParts.ofFloat 9.6e-26 = ⟨false, 8362779449448984, -136, false⟩ := by decide +kernel
    rw [absValue, hparts, magnitude]
    norm_num
  have hpos : 0 < absValue 9.6e-26 := by
    rw [hvalue]
    positivity
  have hdenotes : Denotes "0.01".toList (1 / 100) := by
    have hplaced := denotes_placed (List.cons_ne_nil '1' []) (by simp [Json.Read.Digits]) (-1)
    have hone : natOfChars ['1'] = 1 := rfl
    rw [hone] at hplaced
    norm_num at hplaced
    exact hplaced
  have hshown : shownNumber 9.6e-26 3 (-24) = 10 ^ (-25 : ℤ) := by
    have hshown := value_unitDigits hfinite hpos (show 0 < 3 by decide) (by decide)
    have hunit : unitDigits 9.6e-26 3 = ⟨[1], -25⟩ := by decide +kernel
    have hunitvalue : (Decimal.mk [1] (-25)).value = 10 ^ (-25 : ℤ) := by
      simp [Decimal.value, ofDigits]
    rw [hdigits, hunit, hunitvalue] at hshown
    exact hshown.symm
  rw [htext]
  refine ⟨hfinite, by decide +kernel, 1 / 100, hdenotes, ?_, ?_⟩
  · rw [hshown]
    norm_num
  · rw [hvalue]
    norm_num

end ChartTemplate
