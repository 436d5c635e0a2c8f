import ChartTemplate.Proofs.Json.Digits
import ChartTemplate.Proofs.Numeric.Exact

/-!
# The value of the shortest digits

`Decimal.shortest` looks for digits on decimal grids, from coarse to fine, that lie between the halfway
points to the neighbours of a number. `shortest_le` : their value is at most half a unit of the last bit
above the number, or half a step of the finest grid.
-/

namespace ChartTemplate

def Decimal.value (d : Decimal) : ℚ :=
  ofDigits d.digits * 10 ^ (d.exponent + 1 - d.digits.length)

theorem value_ofScaled (n : ℕ) (k : ℤ) : (Decimal.ofScaled n k).value = n * 10 ^ k := by
  unfold Decimal.ofScaled
  split
  · rename_i hzero
    simp [hzero, Decimal.value, ofDigits]
  · obtain ⟨j, hlength, hdigits⟩ := ofDigits_stripZeros (digitsRev n)
    rw [ofDigits_reverse_digitsRev] at hdigits
    have hexp : k + ((digitsRev n).length : ℤ) - 1 + 1 - ((stripZeros (digitsRev n)).length : ℤ) = j + k := by
      omega
    rw [Decimal.value, List.length_reverse, hexp, zpow_add₀ (by norm_num), zpow_natCast, ← mul_assoc]
    congr 1
    exact_mod_cast hdigits.symm

/-! ## Fractions of naturals -/

theorem scaled_div (p : FloatParts) (k : ℤ) :
    ((p.scaled k).1 : ℚ) / (p.scaled k).2 = magnitude p.mant p.exp * 10 ^ k := by
  show ((p.mant * 2 ^ p.exp.toNat * 10 ^ k.toNat : ℕ) : ℚ) / ((2 ^ (-p.exp).toNat * 10 ^ (-k).toNat : ℕ) : ℚ) = _
  rw [magnitude, zpow_eq_div two_ne_zero, zpow_eq_div (by norm_num : (10 : ℚ) ≠ 0)]
  push_cast
  ring

theorem scaled_pos (p : FloatParts) (k : ℤ) : 0 < (p.scaled k).2 :=
  Nat.mul_pos (Nat.pow_pos (by decide)) (Nat.pow_pos (by decide))

theorem le_of_compareScaled {n m : ℕ} {k q : ℤ} (h : FloatParts.compareScaled n k m q ≠ .gt) :
    (n : ℚ) * 10 ^ k ≤ m * 2 ^ q := by
  have hnat : n * 10 ^ k.toNat * 2 ^ (-q).toNat ≤ m * 2 ^ q.toNat * 10 ^ (-k).toNat :=
    not_lt.mp fun hlt => h (compare_gt_iff_gt.mpr hlt)
  have hq : (n : ℚ) * 10 ^ k.toNat * 2 ^ (-q).toNat ≤ m * 2 ^ q.toNat * 10 ^ (-k).toNat := by
    exact_mod_cast hnat
  rw [zpow_eq_div two_ne_zero, zpow_eq_div (by norm_num : (10 : ℚ) ≠ 0), ← mul_div_assoc, ← mul_div_assoc,
    div_le_div_iff₀ (by positivity) (by positivity)]
  exact hq

section

variable (tie : Tie) (num : ℕ) {den : ℕ}

theorem roundDiv_eq (den : ℕ) : roundDiv tie num den = num / den ∨ roundDiv tie num den = num / den + 1 := by
  unfold roundDiv
  split
  · exact .inl rfl
  · exact .inr rfl
  · exact .inr rfl
  · dsimp only
    split
    · exact .inl rfl
    · exact .inr rfl

theorem roundDiv_le (hden : 0 < den) : (roundDiv tie num den : ℚ) ≤ num / den + 1 / 2 := by
  have hsplit := Nat.div_add_mod num den
  have hdown : 2 * (den * (num / den)) ≤ 2 * num + den := by omega
  have hup (hmod : den ≤ 2 * (num % den)) : 2 * (den * (num / den + 1)) ≤ 2 * num + den := by
    rw [Nat.mul_add]
    omega
  have hnat : 2 * (den * roundDiv tie num den) ≤ 2 * num + den := by
    unfold roundDiv
    split
    · exact hdown
    · rename_i hgt
      exact hup (compare_gt_iff_gt.mp hgt).le
    · rename_i heq
      exact hup (compare_eq_iff_eq.mp heq).ge
    · rename_i heq
      dsimp only
      split
      · exact hdown
      · exact hup (compare_eq_iff_eq.mp heq).ge
  have hdenq : (0 : ℚ) < den := by exact_mod_cast hden
  have hq : 2 * ((den : ℚ) * roundDiv tie num den) ≤ 2 * num + den := by exact_mod_cast hnat
  rw [div_add' _ _ _ hdenq.ne', le_div_iff₀ hdenq]
  linarith

end

namespace FloatParts

variable {tie : Tie} {p : FloatParts} {n : ℕ} {k : ℤ}

/-! ## Grids -/

theorem le_of_readsBack (h : p.readsBack n k = true) : (n : ℚ) * 10 ^ k ≤ (p.mant + 1 / 2) * 2 ^ p.exp := by
  have habove : compareScaled n k (4 * p.mant + 2) (p.exp - 2) ≠ .gt := by
    intro hgt
    simp [readsBack, hgt] at h
  refine (le_of_compareScaled habove).trans_eq ?_
  rw [zpow_sub₀ two_ne_zero]
  push_cast
  ring

theorem readsBack_of_onGrid? (h : p.onGrid? tie k = some n) : p.readsBack n k = true := by
  unfold onGrid? at h
  dsimp only at h
  split at h
  · rename_i hlow hhigh
    rw [← Option.some.inj h]
    rcases roundDiv_eq tie (p.scaled (-k)).1 (p.scaled (-k)).2 with heq | heq
    · rw [heq]
      exact hlow
    · rw [heq]
      exact hhigh
  · rename_i hlow _
    exact Option.some.inj h ▸ hlow
  · rename_i _ hhigh
    exact Option.some.inj h ▸ hhigh
  · cases h

theorem shortestFrom_le (fuel : ℕ) (k : ℤ) :
    ((p.shortestFrom tie fuel k).1 : ℚ) * 10 ^ (p.shortestFrom tie fuel k).2 ≤ (p.mant + 1 / 2) * 2 ^ p.exp ∨
      (p.shortestFrom tie fuel k).1 * 10 ^ (p.shortestFrom tie fuel k).2 ≤
        magnitude p.mant p.exp + 1 / 2 * 10 ^ (k - fuel) := by
  induction fuel generalizing k with
  | zero =>
    right
    have hround := roundDiv_le tie (p.scaled (-k)).1 (scaled_pos p (-k))
    have hpos : (0 : ℚ) < 10 ^ k := zpow_pos (by norm_num) k
    rw [scaled_div, zpow_neg] at hround
    have hmul := mul_le_mul_of_nonneg_right hround hpos.le
    rw [add_mul, mul_assoc, inv_mul_cancel₀ hpos.ne', mul_one] at hmul
    rw [Nat.cast_zero, sub_zero]
    exact hmul
  | succ fuel ih =>
    rw [shortestFrom]
    cases hgrid : p.onGrid? tie k with
    | some n => exact .inl (le_of_readsBack (readsBack_of_onGrid? hgrid))
    | none =>
      rw [show k - ((fuel + 1 : ℕ) : ℤ) = k - 1 - fuel by push_cast; ring]
      exact ih (k - 1)

theorem leadExponent_le (hc : Canonical p.mant p.exp) (he : p.exp ≤ 971) : p.leadExponent ≤ 309 := by
  have hlog : p.mant.log2 ≤ 52 := by
    obtain hzero | hpos := Nat.eq_zero_or_pos p.mant
    · rw [hzero]
      decide
    · exact Nat.lt_succ_iff.mp ((Nat.log2_lt hpos.ne').mpr hc.lt)
  unfold leadExponent
  dsimp only
  rw [Int.fdiv_eq_ediv_of_nonneg _ (by decide)]
  split_ifs <;> omega

end FloatParts

/-- **The shortest digits** have a value of at most half a unit of the last bit above the number, or half
a step of the finest grid. -/
theorem shortest_le (tie : Tie) (x : Float) :
    (Decimal.shortest tie x).value ≤
        ((FloatParts.ofFloat x).mant + 1 / 2) * 2 ^ (FloatParts.ofFloat x).exp ∨
      (Decimal.shortest tie x).value ≤ magnitude (FloatParts.ofFloat x).mant (FloatParts.ofFloat x).exp +
        1 / 2 * 10 ^ ((FloatParts.ofFloat x).leadExponent - 18) := by
  unfold Decimal.shortest
  dsimp only
  split
  · left
    have hzero : (Decimal.mk [0] 0).value = 0 := by simp [Decimal.value, ofDigits]
    rw [hzero]
    positivity
  · rw [value_ofScaled]
    exact FloatParts.shortestFrom_le 18 _

end ChartTemplate
