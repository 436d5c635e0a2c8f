import ChartTemplate.Proofs.Json.Numeral
import ChartTemplate.Proofs.Numeric.Exact

/-!
# Significands scaled by powers of ten

A number with a fraction or an exponent is read as a significand that is scaled in floating point, with
up to three roundings: of the significand, of the power and of their product. What is read is finite
(`isMagnitude_scaleByTen?`). `isSome_scaleByTen?` : a significand is scaled if its exact value is at most
`scaleLimit`, halfway between the two greatest numbers. Below the power of 289 the roundings are far from
the greatest number; from there on, every power is checked with the greatest significand that the limit
allows.
-/

namespace ChartTemplate

open Json.Read

/-- The number is finite and has no minus sign. -/
def IsMagnitude (x : Float) : Prop :=
  ∃ m e, HasParts x m e

section

variable {x y : Float} {v : ℚ} {m m' : ℕ} {e e' : ℤ}

theorem IsMagnitude.isFinite (h : IsMagnitude x) : x.isFinite = true := by
  obtain ⟨m, e, hparts⟩ := h
  show x.toModel.unpack.isFinite = true
  rw [hparts.unpack]
  obtain rfl | hm := Nat.eq_zero_or_pos m
  · rfl
  · rw [unpackedOf_pos _ hm]
    rfl

theorem IsMagnitude.isFinite_neg (h : IsMagnitude x) : (-x).isFinite = true := by
  obtain ⟨m, e, hparts⟩ := h
  show (-x).toModel.unpack.isFinite = true
  rw [unpack_neg hparts.canonical hparts.exp_le hparts.unpack]
  obtain rfl | hm := Nat.eq_zero_or_pos m
  · rfl
  · rw [unpackedOf_pos _ hm]
    rfl

theorem Rounds.isMagnitude (h : Rounds x v) (hinf : x.isInf = false) : IsMagnitude x := by
  obtain ⟨m, e, hnearest, hunpack⟩ := h
  split at hunpack
  · rename_i he
    exact ⟨m, e, hnearest.canonical, he, hunpack⟩
  · have hinf' : x.toModel.unpack.isInf = false := hinf
    rw [hunpack] at hinf'
    cases hinf'

/-- What is below halfway from a number to the one above it is rounded to a number. -/
theorem Rounds.exists_hasParts {n : ℕ} {k : ℤ} (h : Rounds x v) (hc : Canonical n k) (hk : k ≤ 971)
    (hv : BelowHalf v n k) : ∃ m e, HasParts x m e ∧ Nearest v m e := by
  obtain ⟨m, e, hnearest, hunpack⟩ := h
  have he : e ≤ 971 := (hnearest.exp_le hc hv).trans hk
  rw [if_pos he] at hunpack
  exact ⟨m, e, ⟨hnearest.canonical, he, hunpack⟩, hnearest⟩

theorem BelowHalf.of_le (h : BelowHalf v m e) {w : ℚ} (hw : w ≤ v) : BelowHalf w m e := by
  rcases hw.lt_or_eq with hlt | rfl
  · exact .inl (hlt.trans_le (h.elim le_of_lt fun h => h.1.le))
  · exact h

theorem magnitude_mul (m m' : ℕ) (e e' : ℤ) :
    magnitude m e * magnitude m' e' = magnitude (m * m') (e + e') := by
  rw [magnitude, magnitude, magnitude, Nat.cast_mul, zpow_add₀ two_ne_zero]
  ring

theorem belowHalf_of_lt (h : 2 * m * 2 ^ (e - e').toNat < (2 * m' + 1) * 2 ^ (e' - e).toNat) :
    BelowHalf (magnitude m e) m' e' := by
  have hq : (2 : ℚ) * m * 2 ^ (e - e').toNat < (2 * m' + 1) * 2 ^ (e' - e).toNat := by exact_mod_cast h
  have hpow : (2 : ℚ) ^ e = 2 ^ (e - e').toNat / 2 ^ (e' - e).toNat * 2 ^ e' := by
    rw [← neg_sub e e', ← zpow_eq_div two_ne_zero, ← zpow_add₀ two_ne_zero, sub_add_cancel]
  left
  rw [magnitude, hpow, ← mul_assoc, ← mul_div_assoc]
  refine mul_lt_mul_of_pos_right ?_ (two_zpow_pos e')
  rw [div_lt_iff₀ (by positivity)]
  linarith

theorem belowHalf_natCast {n : ℕ} (h : BelowHalf (magnitude n 0) m e) : BelowHalf n m e := by
  rwa [magnitude, zpow_zero, mul_one] at h

theorem HasParts.isMagnitude_div (h : HasParts x m e) (h' : HasParts y m' e') (hone : 1 ≤ magnitude m' e') :
    IsMagnitude (x / y) := by
  have hm' : 0 < m' := Nat.pos_of_ne_zero fun hzero => by
    rw [magnitude_eq_zero_iff.mpr hzero] at hone
    exact absurd hone (by norm_num)
  obtain ⟨n, k, hparts, -⟩ := (h.rounds_div h' hm').exists_hasParts h.canonical h.exp_le
    ((belowHalf_magnitude m e).of_le (div_le_self (magnitude_nonneg m e) hone))
  exact ⟨n, k, hparts⟩

/-! ## Significands and powers -/

theorem exists_significand {n : ℕ} (hn : n < 2 ^ 64) : ∃ m e, HasParts n.toUInt64.toFloat m e ∧ Nearest n m e := by
  -- two to the power of 64 is itself a number, so that nothing below is rounded to more
  refine (rounds_toUInt64 hn).exists_hasParts (n := 2 ^ 52) (k := 12) ⟨by decide, by decide, .inl le_rfl⟩
    (by decide) (belowHalf_natCast (belowHalf_of_lt ?_))
  show 2 * n * 1 < (2 * 2 ^ 52 + 1) * 2 ^ 12
  omega

theorem belowHalf_power {k n : ℕ} (hk : k ≤ n) (h : BelowHalf ((10 ^ n : ℕ) : ℚ) m e) :
    BelowHalf (10 ^ k) m e :=
  h.of_le (by exact_mod_cast Nat.pow_le_pow_right (by decide) hk)

theorem exists_power {k : ℕ} (hk : k ≤ 308) :
    ∃ m e, HasParts (Float.ofScientific 1 false k) m e ∧ 1 ≤ magnitude m e ∧ Nearest (10 ^ k) m e := by
  have hrounds := rounds_ofScientific 1 (e := k) (by omega)
  rw [Nat.cast_one, one_mul] at hrounds
  obtain ⟨m, e, hparts, hnearest⟩ := hrounds.exists_hasParts (n := 2 ^ 53 - 1)
    ⟨by decide, by decide, .inl (by decide)⟩ le_rfl
    (belowHalf_power hk (belowHalf_natCast (belowHalf_of_lt (by decide +kernel))))
  have hone := hnearest.ge_of_le (2 ^ 52) (-52) ⟨by decide, by decide, .inl le_rfl⟩
    (by rw [magnitude]; norm_num; exact one_le_pow₀ (by norm_num))
  refine ⟨m, e, hparts, le_trans ?_ hone, hnearest⟩
  rw [magnitude]
  norm_num

end

/-! ## What is scaled is finite -/

theorem isMagnitude_scaleByTen? {f x : Float} {e : ℤ} (hf : IsMagnitude f)
    (h : scaleByTen? f e = some x) : IsMagnitude x := by
  fun_induction scaleByTen? f e with
  | case1 => cases h
  | case2 f e he pow hpos r hinf =>
    obtain ⟨m, k, hparts⟩ := hf
    obtain ⟨m', k', hpower, -, -⟩ := exists_power he
    rw [← Option.some.inj h]
    exact (hparts.rounds_mul hpower).isMagnitude (by simpa using hinf)
  | case3 f e he =>
    obtain ⟨m, k, hparts⟩ := hf
    obtain ⟨m', k', hpower, hone, -⟩ := exists_power he
    rw [← Option.some.inj h]
    exact hparts.isMagnitude_div hpower hone
  | case4 => exact Option.some.inj h ▸ hf
  | case5 => cases h
  | case6 f e _ _ _ ih =>
    obtain ⟨m, k, hparts⟩ := hf
    obtain ⟨m', k', hpower, hone, -⟩ := exists_power le_rfl
    exact ih (hparts.isMagnitude_div hpower hone) h

/-! ## What can be scaled -/

theorem isSome_scaleByTen?_of_neg (f : Float) {e : ℤ} (he : e < 0) : (scaleByTen? f e).isSome = true := by
  fun_induction scaleByTen? f e with
  | case1 | case2 | case5 => omega
  | case3 | case4 => rfl
  | case6 f e hgreat _ _ ih => exact ih (by omega)

/-- Halfway between the two greatest numbers. -/
@[irreducible] def scaleLimit : ℕ := (2 ^ 54 - 3) * 2 ^ 970

/-- Scaling up does not fail if bounds of the significand and of the power have a product that is rounded
to a number. -/
theorem isSome_scaleByTen?_of_belowHalf {n k m p : ℕ} {e q : ℤ} (hn : n < 2 ^ 64) (hk : k ≤ 308)
    (hc : Canonical m e) (hv : BelowHalf n m e) (hc' : Canonical p q) (hv' : BelowHalf (10 ^ k) p q)
    (hproduct : BelowHalf (magnitude (m * p) (e + q)) (2 ^ 53 - 1) 971) :
    (scaleByTen? n.toUInt64.toFloat k).isSome = true := by
  obtain ⟨a, l, hparts, hnearest⟩ := exists_significand hn
  obtain ⟨a', l', hpower, -, hnearest'⟩ := exists_power hk
  have hle : magnitude a l * magnitude a' l' ≤ magnitude (m * p) (e + q) := by
    rw [← magnitude_mul]
    exact mul_le_mul (hnearest.le_of_belowHalf m e hc hv) (hnearest'.le_of_belowHalf p q hc' hv')
      (magnitude_nonneg a' l') (magnitude_nonneg m e)
  obtain ⟨b, j, hscaled, -⟩ := (hparts.rounds_mul hpower).exists_hasParts
    ⟨by decide, by decide, .inl (by decide)⟩ le_rfl (hproduct.of_le hle)
  have hinf : (n.toUInt64.toFloat * Float.ofScientific 1 false k).isInf = false :=
    isInf_of_isFinite (IsMagnitude.isFinite ⟨b, j, hscaled⟩)
  rw [scaleByTen?, if_pos (by omega)]
  simp [hinf]

theorem isSome_scaleByTen?_zero (e : ℤ) : (scaleByTen? (0 : ℕ).toUInt64.toFloat e).isSome = true := by
  obtain hneg | hpos := lt_or_ge e 0
  · exact isSome_scaleByTen?_of_neg _ hneg
  obtain ⟨k, rfl⟩ := Int.eq_ofNat_of_zero_le hpos
  by_cases hk : k ≤ 308
  · refine isSome_scaleByTen?_of_belowHalf (m := 0) (e := -1074) (p := 2 ^ 53 - 1) (q := 971) (by decide) hk
      ⟨by decide, le_rfl, .inr rfl⟩ (belowHalf_natCast (belowHalf_of_lt (by decide +kernel)))
      ⟨by decide, by decide, .inl (by decide)⟩
      (belowHalf_power hk (belowHalf_natCast (belowHalf_of_lt (by decide +kernel))))
      (belowHalf_of_lt (by decide +kernel))
  · have hzero : ((0 : ℕ).toUInt64.toFloat == 0) = true := rfl
    rw [scaleByTen?, if_neg (by omega), if_pos hzero]
    rfl

theorem isSome_scaleByTen?_of_le {n : ℕ} (hn : n < 2 ^ 64) {e : ℤ} (he : e ≤ 288) :
    (scaleByTen? n.toUInt64.toFloat e).isSome = true := by
  obtain hneg | hpos := lt_or_ge e 0
  · exact isSome_scaleByTen?_of_neg _ hneg
  obtain ⟨k, rfl⟩ := Int.eq_ofNat_of_zero_le hpos
  -- two to the power of 64 bounds the significand, and two to the power of 957 the power
  refine isSome_scaleByTen?_of_belowHalf (m := 2 ^ 52) (e := 12) (p := 2 ^ 52) (q := 905) hn (by omega)
    ⟨by decide, by decide, .inl le_rfl⟩ (belowHalf_natCast (belowHalf_of_lt ?_))
    ⟨by decide, by decide, .inl le_rfl⟩
    (belowHalf_power (n := 288) (by omega) (belowHalf_natCast (belowHalf_of_lt (by decide +kernel))))
    (belowHalf_of_lt (by decide +kernel))
  show 2 * n * 1 < (2 * 2 ^ 52 + 1) * 2 ^ 12
  omega

theorem greatest_product : ∀ i : Fin 20, let k := 289 + i.val
    let n := FloatParts.ofFloat (scaleLimit / 10 ^ k).toUInt64.toFloat
    let p := FloatParts.ofFloat (Float.ofScientific 1 false k)
    (2 * (scaleLimit / 10 ^ k) * 2 ^ (0 - n.exp).toNat < (2 * n.mant + 1) * 2 ^ (n.exp - 0).toNat) ∧
      (2 * 10 ^ k * 2 ^ (0 - p.exp).toNat < (2 * p.mant + 1) * 2 ^ (p.exp - 0).toNat) ∧
      2 * (n.mant * p.mant) * 2 ^ (n.exp + p.exp - 971).toNat <
        (2 * (2 ^ 53 - 1) + 1) * 2 ^ (971 - (n.exp + p.exp)).toNat := by
  decide +kernel

theorem isSome_scaleByTen?_of_ge {n k : ℕ} (hn : n < 2 ^ 64) (hk : 289 ≤ k) (hk' : k ≤ 308)
    (hlimit : n * 10 ^ k ≤ scaleLimit) : (scaleByTen? n.toUInt64.toFloat k).isSome = true := by
  obtain ⟨hsignificand, hpower, hproduct⟩ := greatest_product ⟨k - 289, by omega⟩
  rw [show 289 + (k - 289) = k by omega] at hsignificand hpower hproduct
  have hle : (n : ℚ) ≤ (scaleLimit / 10 ^ k : ℕ) := by
    exact_mod_cast (Nat.le_div_iff_mul_le (by positivity)).mpr hlimit
  exact isSome_scaleByTen?_of_belowHalf hn hk' (canonical_ofFloat _)
    ((belowHalf_natCast (belowHalf_of_lt hsignificand)).of_le hle) (canonical_ofFloat _)
    (belowHalf_power le_rfl (belowHalf_natCast (belowHalf_of_lt hpower))) (belowHalf_of_lt hproduct)

theorem scaleLimit_lt {k : ℕ} (hk : 309 ≤ k) : scaleLimit < 10 ^ k := by
  obtain ⟨j, rfl⟩ := Nat.exists_eq_add_of_le hk
  have hleast : scaleLimit < 10 ^ 309 := by decide +kernel
  rw [pow_add]
  exact hleast.trans_le (Nat.le_mul_of_pos_right _ (by positivity))

theorem exponent_le_of_le_scaleLimit {n : ℕ} (hn : 0 < n) {e : ℤ}
    (hlimit : (n : ℚ) * 10 ^ e ≤ scaleLimit) : e ≤ 308 := by
  by_contra hgreat
  obtain ⟨k, rfl⟩ := Int.eq_ofNat_of_zero_le (show 0 ≤ e by omega)
  have hnat : n * 10 ^ k ≤ scaleLimit := by exact_mod_cast hlimit
  exact (hnat.trans_lt (scaleLimit_lt (by omega))).not_ge (Nat.le_mul_of_pos_left _ hn)

/-- **Scaling** does not fail for values up to halfway between the two greatest numbers. -/
theorem isSome_scaleByTen? {n : ℕ} (hn : n < 2 ^ 64) {e : ℤ} (hlimit : (n : ℚ) * 10 ^ e ≤ scaleLimit) :
    (scaleByTen? n.toUInt64.toFloat e).isSome = true := by
  obtain rfl | hpos := Nat.eq_zero_or_pos n
  · exact isSome_scaleByTen?_zero e
  obtain hle | hgt := le_or_gt e 288
  · exact isSome_scaleByTen?_of_le hn hle
  have he := exponent_le_of_le_scaleLimit hpos hlimit
  obtain ⟨k, rfl⟩ := Int.eq_ofNat_of_zero_le (show 0 ≤ e by omega)
  exact isSome_scaleByTen?_of_ge hn (by omega) (by omega) (by exact_mod_cast hlimit)

end ChartTemplate
