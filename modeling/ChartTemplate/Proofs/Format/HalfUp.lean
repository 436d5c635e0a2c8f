import ChartTemplate.Proofs.Format.Guard
import ChartTemplate.Proofs.Format.Placed
import ChartTemplate.Proofs.InPlace.Format

/-!
# Digits are rounded half upward

An expansion is rounded in two ways: to a number of significant digits, where a carry out of the first
digit moves the exponent and the number of digits stays, and to a number of places behind the point,
where the carry is a further digit in front of it. In both, the digits that are left denote the whole
number nearest to what the expansion denotes in units of the last of them, halves upward
(`Decimal.IsLeading.roundsTo`, `roundedUp_spec`). What carries this is that one more in the last of
some digits is one more in what they spell, through any run of nines (`increment_cases`), and that the next
digit tells whether what is cut off is at least a half (`half_le_iff`).
-/

namespace ChartTemplate

open Json.Read (Digits)

/-! ## Significant digits -/

/-- The second decimal has `count` digits, the first of them not zero, and denotes the first decimal rounded
to as many significant digits, halves upward. -/
structure Decimal.RoundsTo (d r : Decimal) (count : ℕ) : Prop where
  length : r.digits.length = count
  lt_ten : ∀ n ∈ r.digits, n < 10
  first : r.digits.head? ≠ some 0
  value : r.value = rounded d.value count

namespace Decimal

variable {d : Decimal} {count : ℕ}

theorem IsLeading.head?_ne_zero (h : d.IsLeading) : d.digits.head? ≠ some 0 := by
  obtain ⟨digits, e⟩ := d
  obtain ⟨a, ds, rfl⟩ := List.exists_cons_of_ne_nil h.ne_nil
  intro hzero
  obtain rfl : a = 0 := by simpa using hzero
  have hrest : ofDigits ds < 10 ^ ds.length := ofDigits_lt fun n hn => h.lt_ten n (List.mem_cons_of_mem _ hn)
  have hfull : 10 ^ ((0 :: ds).length - 1) ≤ ofDigits (0 :: ds) := h.full
  rw [ofDigits_cons, List.length_cons, Nat.add_sub_cancel] at hfull
  omega

/-- **Fewer digits** of an expansion. -/
theorem IsLeading.roundsTo (h : d.IsLeading) (hcount : 0 < count) (hlength : count < d.digits.length) :
    d.RoundsTo (d.roundTo count) count := by
  obtain ⟨hround, hdigits, hvalue⟩ := roundTo_spec h hcount hlength
  refine ⟨hdigits, hround.lt_ten, hround.head?_ne_zero, ?_⟩
  rw [hvalue, rounded, h.leading_value.2]

end Decimal

/-! ## Places behind the point -/

section Places

variable {ds rest : List ℕ}

/-- Digits with one more in the last place if the digit behind them is at least five. -/
def roundedUp (ds rest : List ℕ) : List ℕ :=
  if 5 ≤ rest.getD 0 0 then
    match increment ds with
    | (ds, true) => 1 :: ds
    | (ds, false) => ds
  else ds

theorem ofDigits_append_div (ds : List ℕ) (rest : List ℕ) :
    (ofDigits (ds ++ rest) : ℚ) / 10 ^ rest.length = (ofDigits ds : ℤ) + ofDigits rest / (10 ^ rest.length : ℕ) := by
  rw [ofDigits_append]
  push_cast
  field_simp

/-- **Digits that are rounded up** spell the nearest whole number, with a further digit if all of them were
nines. -/
theorem roundedUp_spec (hds : ∀ d ∈ ds, d < 10) (hrest : ∀ d ∈ rest, d < 10) (hne : rest ≠ []) :
    (ofDigits (roundedUp ds rest) : ℤ) = ⌊(ofDigits (ds ++ rest) : ℚ) / 10 ^ rest.length + 1 / 2⌋ ∧
      (∀ d ∈ roundedUp ds rest, d < 10) ∧ ds.length ≤ (roundedUp ds rest).length := by
  rw [ofDigits_append_div, floor_half _ (by positivity) (ofDigits_lt hrest), roundedUp]
  by_cases hhalf : 5 ≤ rest.getD 0 0
  · rw [if_pos hhalf, if_pos ((half_le_iff hrest hne).1 hhalf)]
    rcases increment_cases hds with ⟨ds', hup, hlt, hlength, hvalue⟩ | ⟨hup, hvalue⟩
    · rw [hup]
      exact ⟨by dsimp only; rw [hvalue]; push_cast; rfl, hlt, hlength.ge⟩
    · rw [hup]
      refine ⟨?_, by simp, by simp⟩
      dsimp only
      rw [ofDigits_cons, ofDigits_zeros, List.length_replicate, Nat.one_mul, Nat.add_zero, ← hvalue]
      push_cast
      rfl
  · rw [if_neg hhalf, if_neg (mt (half_le_iff hrest hne).2 hhalf), add_zero]
    exact ⟨rfl, hds, le_rfl⟩

end Places

/-- The number that an expansion with digits behind the point denotes. -/
def valueOfPlaces (digits : List ℕ × List ℕ) : ℚ :=
  ofDigits (digits.1 ++ digits.2) / 10 ^ digits.2.length

/-- Digits in front of the point, at least one, and `places` digits behind it, that denote a number rounded
to that many places, halves upward. -/
structure FixedTo (v : ℚ) (digits : List ℕ × List ℕ) (places : ℕ) : Prop where
  whole : digits.1 ≠ []
  length : digits.2.length = places
  lt_ten : ∀ d ∈ digits.1 ++ digits.2, d < 10
  value : valueOfPlaces digits = ⌊v * 10 ^ places + 1 / 2⌋ / 10 ^ places

section Fixed

variable (x : Float) (places : ℕ)

theorem fixedExpansion_lt_ten {d : ℕ} (hd : d ∈ (fixedExpansion x places).1 ++ (fixedExpansion x places).2) :
    d < 10 := by
  unfold fixedExpansion at hd
  dsimp only at hd
  rw [List.take_append_drop, List.mem_append] at hd
  rcases hd with hd | hd
  · rw [List.eq_of_mem_replicate hd]
    norm_num
  · exact Json.lt_ten_of_mem_digitsOf hd

theorem fixedExpansion_fst_ne_nil : (fixedExpansion x places).1 ≠ [] := by
  unfold fixedExpansion
  dsimp only
  generalize digitsOf _ = ds
  rw [← List.length_pos_iff, List.length_take, List.length_append, List.length_replicate]
  omega

theorem fixedPlaces_eq :
    fixedPlaces x places =
      roundedUp ((fixedExpansion x (places + guardDigits)).1 ++
        (fixedExpansion x (places + guardDigits)).2.take places)
        ((fixedExpansion x (places + guardDigits)).2.drop places) := by
  have hnext : ((fixedExpansion x (places + guardDigits)).2.drop places).getD 0 0 =
      (fixedExpansion x (places + guardDigits)).2.getD places 0 := by
    rw [List.getD_eq_getElem?_getD, List.getElem?_drop, Nat.add_zero, List.getD_eq_getElem?_getD]
  unfold roundedUp
  exact hnext ▸ rfl

/-- **Fixed places** of an expansion with guard digits. -/
theorem fixedTo_fixedDigits :
    FixedTo (valueOfPlaces (fixedExpansion x (places + guardDigits))) (fixedDigits x places) places := by
  have hlt {d : ℕ} := fixedExpansion_lt_ten x (places + guardDigits) (d := d)
  have hwhole := fixedExpansion_fst_ne_nil x (places + guardDigits)
  have hplaces := length_snd_fixedExpansion x (places + guardDigits)
  rw [fixedDigits_eq, fixedPlaces_eq]
  generalize fixedExpansion x (places + guardDigits) = expansion at hlt hwhole hplaces
  obtain ⟨whole, frac⟩ := expansion
  dsimp only at hlt hwhole hplaces ⊢
  have hlength : (frac.drop places).length = guardDigits := by
    rw [List.length_drop, hplaces]
    omega
  have hcut : whole ++ frac.take places ++ frac.drop places = whole ++ frac := by
    rw [List.append_assoc, List.take_append_drop]
  have hkept : ∀ d ∈ whole ++ frac.take places, d < 10 := fun d hd => hlt (hcut ▸ List.mem_append_left _ hd)
  have hrest : ∀ d ∈ frac.drop places, d < 10 := fun d hd => hlt (hcut ▸ List.mem_append_right _ hd)
  obtain ⟨hvalue, hten, hlong⟩ := roundedUp_spec hkept hrest
    (List.ne_nil_of_length_pos (by rw [hlength]; decide))
  generalize roundedUp (whole ++ frac.take places) (frac.drop places) = ds at hvalue hten hlong
  have hwhole := List.length_pos_iff.2 hwhole
  rw [List.length_append, List.length_take, hplaces] at hlong
  have hscale : valueOfPlaces (whole, frac) * 10 ^ places =
      (ofDigits (whole ++ frac) : ℚ) / 10 ^ (frac.drop places).length := by
    rw [valueOfPlaces, hlength, hplaces, pow_add]
    field_simp
  have hlast : (ds.drop (ds.length - places)).length = places := by
    rw [List.length_drop]
    omega
  refine ⟨?_, hlast, by rwa [List.take_append_drop], ?_⟩
  · rw [← List.length_pos_iff, List.length_take]
    omega
  · rw [hscale, ← hcut, ← hvalue, valueOfPlaces, hlast, List.take_append_drop, Int.cast_natCast]

end Fixed

/-! ## Texts with fixed places -/

theorem ofDigits_eq_zero_iff {ds : List ℕ} : ofDigits ds = 0 ↔ ∀ d ∈ ds, d = 0 := by
  induction ds with
  | nil => exact iff_of_true rfl (by simp)
  | cons d ds ih =>
    rw [ofDigits_cons, Nat.add_eq_zero_iff, ih, List.forall_mem_cons, Nat.mul_eq_zero]
    simp

/-- The digits around a point, which is left out if no digits follow it. -/
def pointed (digits : List ℕ × List ℕ) : List Char :=
  digitChars digits.1 ++ if digits.2 = [] then [] else '.' :: digitChars digits.2

theorem FixedTo.denotes_pointed {v : ℚ} {digits : List ℕ × List ℕ} {places : ℕ} (h : FixedTo v digits places) :
    Denotes (pointed digits) (⌊v * 10 ^ places + 1 / 2⌋ / 10 ^ places) := by
  obtain ⟨whole, frac⟩ := digits
  have hwhole : digitChars whole ≠ [] := by simpa [digitChars] using h.whole
  have hten : ∀ d ∈ whole, d < 10 := fun d hd => h.lt_ten d (List.mem_append_left _ hd)
  have hten' : ∀ d ∈ frac, d < 10 := fun d hd => h.lt_ten d (List.mem_append_right _ hd)
  rw [← h.value, valueOfPlaces, pointed]
  dsimp only
  split
  · rename_i hnone
    rw [hnone, List.append_nil, List.append_nil, List.length_nil, pow_zero, div_one,
      ← natOfChars_digitChars hten]
    exact denotes_digits hwhole (Json.digits_digitChars hten)
  · rename_i hsome
    have hpoint := denotes_point hwhole (Json.digits_digitChars hten)
      (show digitChars frac ≠ [] by simpa [digitChars] using hsome) (Json.digits_digitChars hten')
    have hchars : digitChars whole ++ digitChars frac = digitChars (whole ++ frac) := List.map_append.symm
    rwa [hchars, natOfChars_digitChars h.lt_ten, digitChars, digitChars, List.length_map, zpow_neg,
      zpow_natCast, ← div_eq_mul_inv] at hpoint

theorem fixedChars_eq_pointed {x : Float} (hfinite : x.isFinite = true) (hsmall : ¬ 1e21 ≤ x.abs) (places : ℕ) :
    fixedChars x places =
      if x < 0 ∧ valueOfPlaces (fixedDigits x places) ≠ 0 then '-' :: pointed (fixedDigits x places)
      else pointed (fixedDigits x places) := by
  have hplaces := (fixedTo_fixedDigits x places).length
  rw [fixedChars, hfinite, decide_eq_false hsmall]
  generalize fixedDigits x places = digits at hplaces
  obtain ⟨whole, frac⟩ := digits
  have hnone : places = 0 ↔ frac = [] := by
    rw [← List.length_eq_zero_iff, hplaces]
  have hsign : (whole ++ frac).any (· != 0) = true ↔ valueOfPlaces (whole, frac) ≠ 0 := by
    rw [valueOfPlaces, Ne, div_eq_zero_iff, or_iff_left (by positivity), Nat.cast_eq_zero, ofDigits_eq_zero_iff,
      List.any_eq_true]
    simp only [not_forall, exists_prop, bne_iff_ne, ne_eq]
  have hbody : (if places = 0 then digitChars whole else digitChars whole ++ '.' :: digitChars frac) =
      pointed (whole, frac) := by
    rw [pointed]
    simp only [hnone]
    split <;> simp
  dsimp only
  rw [hbody, Bool.not_true, Bool.or_false, if_neg Bool.false_ne_true]
  simp only [Bool.and_eq_true, decide_eq_true_eq, hsign]

/-- **Digits are rounded half upward.** Any expansion with a first digit other than zero is rounded to exactly
the significant digits that are asked for, and so is that of a number other than zero, which has thirty digits
more; zero has zeros. Fixed places denote the whole number nearest to the expansion with thirty places more, in
units of the last place, with exactly the places asked for behind the point, and below `10 ^ 21` they are the
text of the number, behind a minus sign if it is below zero and not all of its digits are zeros. -/
theorem digits_half_up {x : Float} (hfinite : x.isFinite = true) {count : ℕ} (hcount : 0 < count) (places : ℕ) :
    (∀ d : Decimal, d.IsLeading → count < d.digits.length → d.RoundsTo (d.roundTo count) count) ∧
      (absValue x = 0 → significantDigits x count = ⟨List.replicate count 0, 0⟩) ∧
      (absValue x ≠ 0 → (Decimal.expand x (count + guardDigits + 1)).IsLeading ∧
        (Decimal.expand x (count + guardDigits + 1)).digits.length = count + guardDigits + 1 ∧
        (Decimal.expand x (count + guardDigits + 1)).RoundsTo (significantDigits x count) count) ∧
      FixedTo (valueOfPlaces (fixedExpansion x (places + guardDigits))) (fixedDigits x places) places ∧
      (¬ 1e21 ≤ x.abs →
        fixedChars x places = (if x < 0 ∧ valueOfPlaces (fixedDigits x places) ≠ 0
          then '-' :: pointed (fixedDigits x places) else pointed (fixedDigits x places)) ∧
        Denotes (pointed (fixedDigits x places))
          (⌊valueOfPlaces (fixedExpansion x (places + guardDigits)) * 10 ^ places + 1 / 2⌋ / 10 ^ places)) := by
  refine ⟨fun d hd hlength => hd.roundsTo hcount hlength, fun hzero => ?_, fun hne => ?_,
    fixedTo_fixedDigits x places, fun hsmall =>
      ⟨fixedChars_eq_pointed hfinite hsmall places, (fixedTo_fixedDigits x places).denotes_pointed⟩⟩
  · rw [significantDigits, if_pos ((beq_zero_iff hfinite).2 hzero), Nat.max_eq_left hcount]
  · have hx : 0 < absValue x := lt_of_le_of_ne (magnitude_nonneg _ _) (Ne.symm hne)
    obtain ⟨hleading, hlength, -⟩ := exists_expand hfinite hx (count + guardDigits)
    rw [significantDigits_of_pos hfinite hx]
    exact ⟨hleading, hlength, hleading.roundsTo hcount (by omega)⟩

/-- The nines of 9.996 are rounded up to a further digit. -/
theorem digits_half_up_nines :
    Float.isFinite 9.996 = true ∧ 0 < 3 ∧ (Decimal.expand 9.996 34).RoundsTo ⟨[1, 0, 0], 1⟩ 3 ∧
      FixedTo (valueOfPlaces (fixedExpansion 9.996 32)) ([1, 0], [0, 0]) 2 ∧
      fixedChars (-9.996) 2 = "-10.00".toList := by
  have hfinite : Float.isFinite 9.996 = true := by decide +kernel
  have hne : absValue 9.996 ≠ 0 := (beq_zero_iff hfinite).not.1 (by decide +kernel)
  have hsignificant : significantDigits 9.996 3 = ⟨[1, 0, 0], 1⟩ := by decide +kernel
  have hfixed : fixedDigits 9.996 2 = ([1, 0], [0, 0]) := by decide +kernel
  obtain ⟨-, -, hrounds, hplaces, -⟩ := digits_half_up hfinite (show 0 < 3 by decide) 2
  rw [hsignificant] at hrounds
  rw [hfixed] at hplaces
  exact ⟨hfinite, by decide, (hrounds hne).2.2, hplaces, by decide +kernel⟩

end ChartTemplate
