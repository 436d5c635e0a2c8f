import ChartTemplate.Proofs.Numeric.Nearest
import ChartTemplate.Value.Document

/-!
# Exact results

What products and conversions of naturals are rounded from (`Rounds`), and where nothing is rounded: a
natural below two to the power of 53 is a number (`ofNat_exact`), and a difference is zero only between
equal numbers (`exists_sub`). From these, the integer part of a number with a fraction of zero is
the number itself (`ofInt_truncInt`).
-/

namespace ChartTemplate

open Float.Model (UnpackedFloat totalExponent)
open Float.Model.UnpackedFloat

/-! ## Values determine parts -/

section

variable {v : ℚ} {m m' : ℕ} {e e' : ℤ}

theorem magnitude_nonneg (m : ℕ) (e : ℤ) : 0 ≤ magnitude m e :=
  mul_nonneg (Nat.cast_nonneg m) (two_zpow_pos e).le

theorem magnitude_eq_zero_iff : magnitude m e = 0 ↔ m = 0 := by
  rw [magnitude, mul_eq_zero, or_iff_left (two_zpow_pos e).ne', Nat.cast_eq_zero]

theorem magnitude_lt_of_exp_lt (h : Canonical m e) (h' : Canonical m' e') (he : e < e') :
    magnitude m e < magnitude m' e' := by
  have hfull : 2 ^ 52 ≤ m' := h'.full.resolve_right (by have := h.le; omega)
  have hnext : magnitude (m + 1) e ≤ magnitude m' e' := magnitude_le_of_exp_lt h.lt hfull he
  refine lt_of_lt_of_le ?_ hnext
  exact mul_lt_mul_of_pos_right (by exact_mod_cast Nat.lt_succ_self m) (two_zpow_pos e)

theorem magnitude_inj (h : Canonical m e) (h' : Canonical m' e')
    (hv : magnitude m e = magnitude m' e') : m = m' ∧ e = e' := by
  rcases lt_trichotomy e e' with hlt | rfl | hgt
  · exact absurd hv (magnitude_lt_of_exp_lt h h' hlt).ne
  · exact ⟨by exact_mod_cast mul_right_cancel₀ (two_zpow_pos e).ne' hv, rfl⟩
  · exact absurd hv (magnitude_lt_of_exp_lt h' h hgt).ne'

theorem belowHalf_magnitude (m : ℕ) (e : ℤ) : BelowHalf (magnitude m e) m e :=
  .inl (mul_lt_mul_of_pos_right (by linarith) (two_zpow_pos e))

theorem Nearest.eq_of_canonical (h : Nearest (magnitude m e) m' e') (hc : Canonical m e) :
    m' = m ∧ e' = e :=
  magnitude_inj h.canonical hc
    (le_antisymm (h.le_of_belowHalf m e hc (belowHalf_magnitude m e)) (h.ge_of_le m e hc le_rfl))

theorem Nearest.pos (h : Nearest v m e) (hv : 2 ^ (-1074 : ℤ) ≤ v) : 0 < m := by
  have hleast : magnitude 1 (-1074) ≤ magnitude m e :=
    h.ge_of_le 1 (-1074) ⟨by decide, le_rfl, .inr rfl⟩ (by simpa [magnitude] using hv)
  refine Nat.pos_of_ne_zero fun hm => ?_
  rw [magnitude_eq_zero_iff.mpr hm, magnitude, Nat.cast_one, one_mul] at hleast
  exact (two_zpow_pos (-1074)).not_ge hleast

/-- What is below halfway from a number to the one above it is rounded to one of at most its exponent. -/
theorem Nearest.exp_le (h : Nearest v m e) (hc : Canonical m' e') (hv : BelowHalf v m' e') : e ≤ e' :=
  not_lt.mp fun hlt =>
    (magnitude_lt_of_exp_lt hc h.canonical hlt).not_ge (h.le_of_belowHalf m' e' hc hv)

end

/-! ## What is rounded -/

theorem log2_mul_two_pow {m : ℕ} (hm : m ≠ 0) (k : ℕ) : (m * 2 ^ k).log2 = m.log2 + k := by
  induction k with
  | zero => rw [pow_zero, mul_one, add_zero]
  | succ k ih =>
    have hpos : m * 2 ^ k ≠ 0 := mul_ne_zero hm (pow_ne_zero k two_ne_zero)
    rw [pow_succ, ← mul_assoc, mul_comm _ 2, Nat.log2_two_mul hpos, ih]
    rfl

theorem magnitude_shift (m k : ℕ) (e : ℤ) : magnitude (m * 2 ^ k) (e - k) = magnitude m e := by
  rw [magnitude, magnitude, Nat.cast_mul, mul_assoc, Nat.cast_pow, Nat.cast_ofNat, ← zpow_natCast,
    ← zpow_add₀ two_ne_zero, add_sub_cancel]

theorem round_eq (s : Sign) {m : ℕ} (hm : m ≠ 0) (e : ℤ) :
    ∃ m' e', Nearest (magnitude m e) m' e' ∧ UnpackedFloat.round .binary64 s m e = unpackedOf s m' e' := by
  have htotal (m : ℕ) (e : ℤ) : totalExponent m e = m.log2 + 1 + e := rfl
  -- the significand is made long enough first
  generalize hk : (e - max (totalExponent m e - 53) (-1074)).toNat = k
  have hround : UnpackedFloat.round .binary64 s m e = roundWithAccuracy .binary64 s (m <<< k) (e - k) .exact := by
    rw [← hk]
    rfl
  have hvalue : ((m <<< k : ℕ) : ℚ) * 2 ^ (e - k) = magnitude m e := by
    rw [Nat.shiftLeft_eq]
    exact magnitude_shift m k e
  rw [hround, ← hvalue]
  refine roundWithAccuracy_eq s (represents_exact _) ?_
  rw [Nat.shiftLeft_eq, htotal, log2_mul_two_pow hm]
  rw [htotal] at hk
  push_cast
  omega

theorem nearest_zero : Nearest 0 0 (-1074) := by
  obtain ⟨m, e, hnearest, -⟩ := roundWithAccuracy_eq .positive (represents_exact 0) (e := -1074) (by decide)
  rw [Nat.cast_zero, zero_mul] at hnearest
  obtain ⟨rfl, rfl⟩ := Nearest.eq_of_canonical (m := 0) (e := -1074) (by simpa [magnitude] using hnearest)
    ⟨by decide, le_rfl, .inr rfl⟩
  exact hnearest

/-- The number is the one nearest to the value, or infinite if that is beyond all numbers. -/
def Rounds (x : Float) (v : ℚ) : Prop :=
  ∃ m e, Nearest v m e ∧
    x.toModel.unpack = if e ≤ 971 then unpackedOf .positive m e else .infinity .positive

theorem rounds_pack {v : ℚ} {m : ℕ} {e : ℤ} (h : Nearest v m e) :
    Rounds (.ofModel (Float.Model.pack (unpackedOf .positive m e))) v :=
  ⟨m, e, h, unpack_pack .positive h.canonical⟩

structure HasParts (x : Float) (m : ℕ) (e : ℤ) : Prop where
  canonical : Canonical m e
  exp_le : e ≤ 971
  unpack : x.toModel.unpack = unpackedOf .positive m e

section

variable {x y : Float} {m m' : ℕ} {e e' : ℤ}

theorem isInf_of_isFinite (h : x.isFinite = true) : x.isInf = false := by
  have hfinite : x.toModel.unpack.isFinite = true := h
  show x.toModel.unpack.isInf = false
  cases hu : x.toModel.unpack with
  | infinity s => rw [hu] at hfinite; cases hfinite
  | _ => rfl

theorem Rounds.hasParts (h : Rounds x (magnitude m e)) (hc : Canonical m e) (he : e ≤ 971) :
    HasParts x m e := by
  obtain ⟨m', e', hnearest, hunpack⟩ := h
  obtain ⟨rfl, rfl⟩ := hnearest.eq_of_canonical hc
  rw [if_pos he] at hunpack
  exact ⟨hc, he, hunpack⟩

theorem rounds_toFloat (n : UInt64) : Rounds n.toFloat n.toNat := by
  obtain hzero | hpos := eq_or_ne n.toNat 0
  · obtain rfl : n = 0 := UInt64.toNat_inj.mp hzero
    exact ⟨0, -1074, nearest_zero, rfl⟩
  · obtain ⟨m, e, hnearest, hround⟩ := round_eq .positive hpos 0
    have hnormalize : UnpackedFloat.normalize .binary64 n.toNat 0 .positive = unpackedOf .positive m e := by
      rw [UnpackedFloat.normalize, compare_gt_iff_gt.mpr (show (0 : ℤ) < n.toNat by omega)]
      exact hround
    rw [magnitude, zpow_zero, mul_one] at hnearest
    have hmodel : n.toFloat = .ofModel (Float.Model.pack (UnpackedFloat.normalize .binary64 n.toNat 0 .positive)) := rfl
    rw [hmodel, hnormalize]
    exact rounds_pack hnearest

theorem mul_exp_le (h : Canonical m e) (h' : Canonical m' e') (hm : 0 < m) (hm' : 0 < m') :
    e + e' ≤ max (totalExponent (m * m') (e + e') - 53) (-1074) := by
  have htotal : totalExponent (m * m') (e + e') = (m * m').log2 + 1 + (e + e') := rfl
  have hlog (hfull : 2 ^ 52 ≤ m * m') : 52 ≤ (m * m').log2 :=
    (Nat.le_log2 (by positivity)).mpr hfull
  rcases h.full, h'.full with ⟨hfull | hleast, hfull' | hleast'⟩
  · have := hlog (hfull.trans (Nat.le_mul_of_pos_right m hm'))
    omega
  · have := hlog (hfull.trans (Nat.le_mul_of_pos_right m hm'))
    omega
  · have := hlog (hfull'.trans (Nat.le_mul_of_pos_left m' hm))
    omega
  · omega

theorem mul_unpackedOf (s s' : Sign) (m m' : ℕ) (e e' : ℤ) :
    mul .binary64 (unpackedOf s m e) (unpackedOf s' m' e') =
      if m * m' = 0 then .zero (s * s')
      else roundWithAccuracy .binary64 (s * s') (m * m') (e + e') .exact := by
  obtain rfl | hm := Nat.eq_zero_or_pos m <;> obtain rfl | hm' := Nat.eq_zero_or_pos m'
  · rfl
  · rw [zero_mul, if_pos rfl, unpackedOf_pos _ hm']
    rfl
  · rw [mul_zero, if_pos rfl, unpackedOf_pos _ hm]
    rfl
  · rw [if_neg (Nat.mul_pos hm hm').ne', unpackedOf_pos _ hm, unpackedOf_pos _ hm']
    rfl

/-- **Products** are rounded from the product of the values. -/
theorem HasParts.rounds_mul (h : HasParts x m e) (h' : HasParts y m' e') :
    Rounds (x * y) (magnitude m e * magnitude m' e') := by
  have hmodel : x * y = .ofModel (Float.Model.pack (mul .binary64 x.toModel.unpack y.toModel.unpack)) := rfl
  have hvalue : ((m * m' : ℕ) : ℚ) * 2 ^ (e + e') = magnitude m e * magnitude m' e' := by
    rw [magnitude, magnitude, Nat.cast_mul, zpow_add₀ two_ne_zero]
    ring
  rw [hmodel, h.unpack, h'.unpack, mul_unpackedOf, ← hvalue]
  split
  · rename_i hzero
    rw [hzero, Nat.cast_zero, zero_mul]
    exact ⟨0, -1074, nearest_zero, rfl⟩
  · rename_i hpos
    obtain ⟨hm, hm'⟩ := mul_ne_zero_iff.mp hpos
    obtain ⟨n, k, hnearest, hround⟩ := roundWithAccuracy_eq (.positive * .positive)
      (represents_exact (m * m'))
      (mul_exp_le h.canonical h'.canonical (Nat.pos_of_ne_zero hm) (Nat.pos_of_ne_zero hm'))
    rw [hround]
    exact rounds_pack hnearest

theorem isNaN_unpackedOf (s : Sign) (m : ℕ) (e : ℤ) : (unpackedOf s m e).isNaN = false := by
  unfold unpackedOf
  split <;> rfl

theorem isNaN_mul (hx : x.isFinite = true) (hy : y.isFinite = true) : (x * y).isNaN = false := by
  show (Float.Model.pack (mul .binary64 x.toModel.unpack y.toModel.unpack)).unpack.isNaN = false
  have hc := canonical_ofFloat x
  have hc' := canonical_ofFloat y
  rw [unpack_of_isFinite hx, unpack_of_isFinite hy, FloatParts.unpacked, FloatParts.unpacked,
    mul_unpackedOf]
  split
  · cases signOf (FloatParts.ofFloat x).negative <;> cases signOf (FloatParts.ofFloat y).negative <;> rfl
  · rename_i hpos
    obtain ⟨hm, hm'⟩ := mul_ne_zero_iff.mp hpos
    obtain ⟨n, k, hnearest, hround⟩ := roundWithAccuracy_eq _ (represents_exact _)
      (mul_exp_le hc hc' (Nat.pos_of_ne_zero hm) (Nat.pos_of_ne_zero hm'))
    rw [hround, unpack_pack _ hnearest.canonical]
    split
    · exact isNaN_unpackedOf _ n k
    · rfl

theorem log2_div {a b : ℕ} (hb : b ≠ 0) (hlog : b.log2 + 1 ≤ a.log2) :
    a.log2 ≤ (a / b).log2 + b.log2 + 1 := by
  have ha : a ≠ 0 := by
    rintro rfl
    simp at hlog
  have hpow : 2 ^ (a.log2 - b.log2 - 1) ≤ a / b := by
    rw [Nat.le_div_iff_mul_le (Nat.pos_of_ne_zero hb)]
    calc 2 ^ (a.log2 - b.log2 - 1) * b
      _ ≤ 2 ^ (a.log2 - b.log2 - 1) * 2 ^ (b.log2 + 1) := Nat.mul_le_mul_left _ Nat.lt_log2_self.le
      _ = 2 ^ a.log2 := by rw [← pow_add]; congr 1; omega
      _ ≤ a := Nat.log2_self_le ha
  have hle := (Nat.le_log2 (Nat.ne_of_gt ((Nat.two_pow_pos _).trans_le hpow))).mpr hpow
  omega

theorem div_exp_le (h : Canonical m e) (hm : 0 < m) (hm' : 0 < m') {t : ℤ}
    (ht : t = min (e - e') (max (totalExponent m e - totalExponent m' e' - 53) (-1074))) :
    t ≤ max (totalExponent ((m <<< (e - e' - t).toNat) / m') t - 53) (-1074) := by
  have htotal (m : ℕ) (e : ℤ) : totalExponent m e = m.log2 + 1 + e := rfl
  rw [htotal, htotal] at ht
  rw [htotal]
  by_cases hleast : t ≤ -1074
  · omega
  have hlog := log2_mul_two_pow hm.ne' (e - e' - t).toNat
  have hshort : m.log2 ≤ 52 := Nat.lt_succ_iff.mp ((Nat.log2_lt hm.ne').mpr h.lt)
  rw [← Nat.shiftLeft_eq] at hlog
  have hdiv := log2_div (a := m <<< (e - e' - t).toNat) hm'.ne' (by omega)
  omega

theorem quotient_eq (hm' : 0 < m') {t : ℤ} (ht : t ≤ e - e') :
    (((m <<< (e - e' - t).toNat) / m' : ℕ) + ((m <<< (e - e' - t).toNat) % m' : ℕ) / m' : ℚ) * 2 ^ t =
      magnitude m e / magnitude m' e' := by
  have hm'q : (m' : ℚ) ≠ 0 := by exact_mod_cast hm'.ne'
  have hsplit : (m' : ℚ) * ((m <<< (e - e' - t).toNat) / m' : ℕ) + ((m <<< (e - e' - t).toNat) % m' : ℕ) =
      m * 2 ^ (e - e' - t) := by
    rw [← Nat.cast_mul, ← Nat.cast_add, Nat.div_add_mod, Nat.shiftLeft_eq, Nat.cast_mul, Nat.cast_pow,
      Nat.cast_ofNat, ← zpow_natCast]
    congr 2
    omega
  have hpow : (2 : ℚ) ^ (e - e' - t) * 2 ^ t * 2 ^ e' = 2 ^ e := by
    rw [← zpow_add₀ two_ne_zero, ← zpow_add₀ two_ne_zero]
    congr 1
    omega
  rw [magnitude, magnitude, eq_div_iff (mul_ne_zero hm'q (two_zpow_pos e').ne'), ← hpow]
  field_simp
  rw [← hsplit]
  ring

theorem div_unpackedOf (h : Canonical m e) (hm : 0 < m) (hm' : 0 < m') (s s' : Sign) :
    ∃ n k, Nearest (magnitude m e / magnitude m' e') n k ∧
      div .binary64 (unpackedOf s m e) (unpackedOf s' m' e') = unpackedOf (s / s') n k := by
  rw [unpackedOf_pos _ hm, unpackedOf_pos _ hm']
  generalize ht : min (e - e') (max (totalExponent m e - totalExponent m' e' - 53) (-1074)) = t
  have hexp := div_exp_le h hm hm' ht.symm
  have hcore : div .binary64 (.finite s m e hm) (.finite s' m' e' hm') =
      roundWithAccuracy .binary64 (s / s') ((m <<< (e - e' - t).toNat) / m') t
        (accuracyOfFraction ((m <<< (e - e' - t).toNat) % m') m') := by
    rw [← ht]
    rfl
  have hvalue : (((m <<< (e - e' - t).toNat) / m' : ℕ) +
      ((m <<< (e - e' - t).toNat) % m' : ℕ) / m' : ℚ) * 2 ^ t = magnitude m e / magnitude m' e' :=
    quotient_eq hm' (by omega)
  obtain ⟨n, k, hnearest, hround⟩ := roundWithAccuracy_eq (s / s')
    (represents_fraction _ _ m' (Nat.mod_lt _ hm')) hexp
  exact ⟨n, k, hvalue ▸ hnearest, hcore.trans hround⟩

/-- **Quotients** are rounded from the quotient of the values. -/
theorem HasParts.rounds_div (h : HasParts x m e) (h' : HasParts y m' e') (hm' : 0 < m') :
    Rounds (x / y) (magnitude m e / magnitude m' e') := by
  have hmodel : x / y = .ofModel (Float.Model.pack (div .binary64 x.toModel.unpack y.toModel.unpack)) := rfl
  rw [hmodel, h.unpack, h'.unpack]
  obtain rfl | hm := Nat.eq_zero_or_pos m
  · have hzero : div .binary64 (.zero .positive) (.finite .positive m' e' hm') = .zero .positive := rfl
    rw [magnitude_eq_zero_iff.mpr rfl, zero_div, unpackedOf_zero, unpackedOf_pos _ hm', hzero]
    exact ⟨0, -1074, nearest_zero, rfl⟩
  · obtain ⟨n, k, hnearest, hdiv⟩ := div_unpackedOf h.canonical hm hm' .positive .positive
    rw [hdiv]
    exact rounds_pack hnearest

end

/-! ## Naturals -/

theorem exists_canonical {n : ℕ} (hn : n < 2 ^ 53) : ∃ m e, Canonical m e ∧ e ≤ 971 ∧ magnitude m e = n := by
  obtain rfl | hpos := eq_or_ne n 0
  · exact ⟨0, -1074, ⟨by decide, le_rfl, .inr rfl⟩, by decide, by simp [magnitude]⟩
  · have hlog : n.log2 < 53 := (Nat.log2_lt hpos).mpr hn
    have hshift := log2_mul_two_pow hpos (52 - n.log2)
    refine ⟨n * 2 ^ (52 - n.log2), 0 - (52 - n.log2 : ℕ), ⟨?_, by omega, .inl ?_⟩, by omega, ?_⟩
    · rw [← Nat.log2_lt (by positivity)]
      omega
    · rw [← Nat.le_log2 (by positivity)]
      omega
    · rw [magnitude_shift, magnitude, zpow_zero, mul_one]

theorem zpow_eq_div {b : ℚ} (hb : b ≠ 0) (e : ℤ) : b ^ e = b ^ e.toNat / b ^ (-e).toNat := by
  rw [eq_div_iff (pow_ne_zero _ hb), ← zpow_natCast, ← zpow_natCast, ← zpow_add₀ hb]
  congr 1
  omega

theorem magnitude_eq_iff {m n : ℕ} {e : ℤ} :
    magnitude m e = n ↔ m * 2 ^ e.toNat = n * 2 ^ (-e).toNat := by
  rw [magnitude, zpow_eq_div two_ne_zero, ← mul_div_assoc, div_eq_iff (by positivity)]
  exact_mod_cast Iff.rfl

theorem hasParts_ofFloat {x : Float} (hfinite : x.isFinite = true) (hsign : signBit x = false) :
    HasParts x (FloatParts.ofFloat x).mant (FloatParts.ofFloat x).exp := by
  refine ⟨canonical_ofFloat x, exp_le_of_isFinite hfinite, ?_⟩
  rw [unpack_of_isFinite hfinite, FloatParts.unpacked]
  show unpackedOf (signOf (signBit x)) _ _ = _
  rw [hsign]
  rfl

theorem hasParts_powerOfTen {e : ℕ} (he : e < 23) :
    ∃ m k, HasParts Float.exactlyRepresentablePowersOfTen[e] m k ∧ magnitude m k = (10 ^ e : ℕ) := by
  have hall : ∀ e : Fin 23, let x := Float.exactlyRepresentablePowersOfTen[e]
      x.isFinite = true ∧ signBit x = false ∧
        (FloatParts.ofFloat x).mant * 2 ^ (FloatParts.ofFloat x).exp.toNat =
          10 ^ e.val * 2 ^ (-(FloatParts.ofFloat x).exp).toNat := by
    decide +kernel
  obtain ⟨hfinite, hsign, hvalue⟩ := hall ⟨e, he⟩
  exact ⟨_, _, hasParts_ofFloat hfinite hsign, magnitude_eq_iff.mpr hvalue⟩

theorem rounds_toUInt64 {n : ℕ} (hn : n < 2 ^ 64) : Rounds n.toUInt64.toFloat n := by
  have hrounds := rounds_toFloat n.toUInt64
  rwa [show n.toUInt64.toNat = n from UInt64.toNat_ofNat_of_lt hn] at hrounds

theorem hasParts_toUInt64 {n : ℕ} (hn : n < 2 ^ 53) :
    ∃ m e, HasParts n.toUInt64.toFloat m e ∧ magnitude m e = n := by
  obtain ⟨m, e, hc, he, hvalue⟩ := exists_canonical hn
  exact ⟨m, e, (hvalue ▸ rounds_toUInt64 (by omega)).hasParts hc he, hvalue⟩

/-- A numeral beyond the table is rounded from its value, since its significand is long enough. -/
theorem ofScientific_eq {n : ℕ} (hn : n ≠ 0) {e : ℕ} (he : e ≤ 2048) :
    ∃ m k, Nearest (n * 10 ^ e) m k ∧
      UnpackedFloat.ofScientific .binary64 n (Int.ofNat e) = unpackedOf .positive m k := by
  have hvalue : ((n <<< 53 * 10 ^ e : ℕ) : ℚ) * 2 ^ (-53 + 0 : ℤ) = n * 10 ^ e := by
    rw [Nat.shiftLeft_eq]
    push_cast
    rw [mul_right_comm, mul_assoc (n : ℚ)]
    norm_num
  have hlog : 53 ≤ (n <<< 53 * 10 ^ e).log2 := by
    rw [Nat.le_log2 (by rw [Nat.shiftLeft_eq]; positivity), Nat.shiftLeft_eq]
    calc 2 ^ 53
      _ ≤ n * 2 ^ 53 := Nat.le_mul_of_pos_left _ (Nat.pos_of_ne_zero hn)
      _ ≤ n * 2 ^ 53 * 10 ^ e := Nat.le_mul_of_pos_right _ (by positivity)
  have hexp : (-53 + 0 : ℤ) ≤ max (totalExponent (n <<< 53 * 10 ^ e) (-53 + 0) - 53) (-1074) := by
    show (-53 + 0 : ℤ) ≤ max (((n <<< 53 * 10 ^ e).log2 : ℤ) + 1 + (-53 + 0) - 53) (-1074)
    omega
  have hgreat : ¬ Int.ofNat e > 2 ^ Float.Model.Format.binary64.exponentBits := by
    show ¬ (e : ℤ) > 2 ^ 11
    omega
  have hleast : ¬ Int.ofNat e < -(2 ^ Float.Model.Format.binary64.exponentBits + (n.log2 : ℤ)) := by
    show ¬ (e : ℤ) < -(2 ^ 11 + (n.log2 : ℤ))
    omega
  obtain ⟨m, k, hnearest, hround⟩ := roundWithAccuracy_eq .positive (represents_exact _) hexp
  refine ⟨m, k, hvalue ▸ hnearest, ?_⟩
  rw [UnpackedFloat.ofScientific, dif_neg hn, if_neg hgreat, if_neg hleast,
    if_pos (show 0 ≤ Int.ofNat e from Int.natCast_nonneg e), ← hround]
  rfl

/-- **Decimal numerals** are rounded from their value. -/
theorem rounds_ofScientific (n : ℕ) {e : ℕ} (he : e ≤ 2048) :
    Rounds (Float.ofScientific n false e) (n * 10 ^ e) := by
  rw [Float.ofScientific]
  split
  · rename_i hsmall
    obtain ⟨m, k, hparts, hvalue⟩ := hasParts_toUInt64 hsmall.1
    obtain ⟨m', k', hpower, hvalue'⟩ := hasParts_powerOfTen (Nat.lt_succ_of_le hsmall.2)
    have hproduct := hparts.rounds_mul hpower
    rw [hvalue, hvalue', Nat.cast_pow, Nat.cast_ofNat] at hproduct
    exact hproduct
  · show Rounds (.ofModel (Float.Model.pack (UnpackedFloat.ofScientific .binary64 n (Int.ofNat e)))) _
    obtain rfl | hn := eq_or_ne n 0
    · rw [Nat.cast_zero, zero_mul, UnpackedFloat.ofScientific, dif_pos rfl]
      exact ⟨0, -1074, nearest_zero, rfl⟩
    · obtain ⟨m, k, hnearest, heq⟩ := ofScientific_eq hn he
      rw [heq]
      exact rounds_pack hnearest

theorem rounds_ofNat (n : ℕ) : Rounds (Float.ofNat n) n := by
  have hrounds := rounds_ofScientific n (Nat.zero_le 2048)
  rwa [pow_zero, mul_one] at hrounds

theorem ofNat_exact {n : ℕ} (hn : n < 2 ^ 53) : ∃ m e, HasParts (Float.ofNat n) m e ∧ magnitude m e = n := by
  obtain ⟨m, e, hc, he, hvalue⟩ := exists_canonical hn
  exact ⟨m, e, (hvalue ▸ rounds_ofNat n).hasParts hc he, hvalue⟩

/-! ## Differences -/

section

variable {m m' : ℕ} {e e' : ℤ}

/-- The value of a significand, an exponent and a sign. -/
def signedMagnitude (s : Sign) (m : ℕ) (e : ℤ) : ℚ :=
  s.apply m * 2 ^ e

theorem signedMagnitude_zero (s : Sign) (e : ℤ) : signedMagnitude s 0 e = 0 := by
  cases s <;> simp [signedMagnitude, Sign.apply]

theorem apply_shift (s : Sign) (m k : ℕ) : s.apply (m <<< k : ℕ) = s.apply m * 2 ^ k := by
  rw [Nat.shiftLeft_eq]
  cases s
  · show -((m * 2 ^ k : ℕ) : ℤ) = -(m : ℤ) * 2 ^ k
    push_cast
    ring
  · show ((m * 2 ^ k : ℕ) : ℤ) = (m : ℤ) * 2 ^ k
    push_cast
    ring

theorem signedMagnitude_decrease (s : Sign) {k : ℤ} (hk : k ≤ e) :
    (s.apply (decreaseExponent m e k).1 : ℚ) * 2 ^ k = signedMagnitude s m e := by
  have hpow : (2 : ℚ) ^ (e - k).toNat * 2 ^ k = 2 ^ e := by
    rw [← zpow_natCast, ← zpow_add₀ two_ne_zero]
    congr 1
    omega
  show (s.apply (m <<< (e - k).toNat : ℕ) : ℚ) * 2 ^ k = s.apply m * 2 ^ e
  rw [apply_shift, Int.cast_mul, Int.cast_pow, Int.cast_ofNat, mul_assoc, hpow]

theorem exists_normalize (d : ℤ) {k : ℤ} (hk : -1074 ≤ k) :
    ∃ t n l, Canonical n l ∧ UnpackedFloat.normalize .binary64 d k .positive = unpackedOf t n l ∧
      (n = 0 → d = 0) := by
  have hround (t : Sign) (hd : d ≠ 0) : ∃ n l, Canonical n l ∧
      UnpackedFloat.round .binary64 t d.natAbs k = unpackedOf t n l ∧ n ≠ 0 := by
    obtain ⟨n, l, hnearest, hround⟩ := round_eq t (Int.natAbs_ne_zero.mpr hd) k
    refine ⟨n, l, hnearest.canonical, hround, (hnearest.pos ?_).ne'⟩
    calc (2 : ℚ) ^ (-1074 : ℤ)
      _ ≤ 2 ^ k := zpow_le_zpow_right₀ one_le_two hk
      _ ≤ d.natAbs * 2 ^ k :=
        le_mul_of_one_le_left (two_zpow_pos k).le
          (by exact_mod_cast Nat.one_le_iff_ne_zero.mpr (Int.natAbs_ne_zero.mpr hd))
  unfold UnpackedFloat.normalize
  rcases lt_trichotomy d 0 with hlt | rfl | hgt
  · obtain ⟨n, l, hc, hround, hn⟩ := hround .negative hlt.ne
    rw [compare_lt_iff_lt.mpr hlt, show (-d).toNat = d.natAbs by omega]
    exact ⟨_, n, l, hc, hround, fun h => absurd h hn⟩
  · exact ⟨.positive, 0, -1074, ⟨by decide, le_rfl, .inr rfl⟩, rfl, fun _ => rfl⟩
  · obtain ⟨n, l, hc, hround, hn⟩ := hround .positive hgt.ne'
    rw [compare_gt_iff_gt.mpr hgt, show d.toNat = d.natAbs by omega]
    exact ⟨_, n, l, hc, hround, fun h => absurd h hn⟩

theorem exists_sub (h : Canonical m e) (h' : Canonical m' e') (s s' : Sign) :
    ∃ t n l, Canonical n l ∧
      sub .binary64 (unpackedOf s m e) (unpackedOf s' m' e') = unpackedOf t n l ∧
      (n = 0 → signedMagnitude s m e = signedMagnitude s' m' e') := by
  obtain rfl | hm := Nat.eq_zero_or_pos m <;> obtain rfl | hm' := Nat.eq_zero_or_pos m'
  · refine ⟨if s == -s' then s else .positive, 0, e, h, ?_, fun _ => ?_⟩
    · cases s <;> cases s' <;> rfl
    · rw [signedMagnitude_zero, signedMagnitude_zero]
  · refine ⟨-s', m', e', h', ?_, fun hzero => absurd hzero hm'.ne'⟩
    rw [unpackedOf_pos _ hm', unpackedOf_pos _ hm']
    rfl
  · refine ⟨s, m, e, h, ?_, fun hzero => absurd hzero hm.ne'⟩
    rw [unpackedOf_pos _ hm]
    rfl
  · rw [unpackedOf_pos _ hm, unpackedOf_pos _ hm']
    obtain ⟨t, n, l, hc, hnormalize, hzero⟩ := exists_normalize
      (s.apply (decreaseExponent m e (min e e')).1 - s'.apply (decreaseExponent m' e' (min e e')).1)
      (le_min h.le h'.le)
    refine ⟨t, n, l, hc, hnormalize, fun hn => ?_⟩
    rw [← signedMagnitude_decrease s (min_le_left e e'), ← signedMagnitude_decrease s' (min_le_right e e'),
      sub_eq_zero.mp (hzero hn)]

end

/-! ## Integer parts -/

section

variable {x : Float} {m : ℕ} {e : ℤ}

theorem pack_beq_zero {t : Sign} (hc : Canonical m e)
    (h : ((.ofModel (Float.Model.pack (unpackedOf t m e)) : Float) == 0) = true) : m = 0 := by
  have hcompare : ((Float.Model.pack (unpackedOf t m e)).unpack.compare (.zero .positive) == some .eq) =
      true := h
  by_contra hm
  rw [unpack_pack t hc, unpackedOf_pos t (Nat.pos_of_ne_zero hm)] at hcompare
  split at hcompare <;> cases t <;> cases hcompare

theorem isFinite_of_fract (h : (fract x == 0) = true) : x.isFinite = true := by
  by_contra hfinite
  have htrunc : trunc x = x := if_neg hfinite
  have hcompare : ((Float.Model.pack (sub .binary64 x.toModel.unpack x.toModel.unpack)).unpack.compare
      (.zero .positive) == some .eq) = true := by
    rw [fract, htrunc] at h
    exact h
  have hunpack : x.toModel.unpack.isFinite = false := Bool.eq_false_iff.mpr hfinite
  cases hu : x.toModel.unpack with
  | zero s => rw [hu] at hunpack; cases hunpack
  | finite s m e hm => rw [hu] at hunpack; cases hunpack
  | infinity s =>
    rw [hu] at hcompare
    cases s <;> cases hcompare
  | notANumber =>
    rw [hu] at hcompare
    cases hcompare

theorem unpack_neg {t : Sign} (hc : Canonical m e) (he : e ≤ 971)
    (h : x.toModel.unpack = unpackedOf t m e) : (-x).toModel.unpack = unpackedOf (-t) m e := by
  have hmodel : (-x).toModel.unpack = (Float.Model.pack x.toModel.unpack.neg).unpack := rfl
  have hneg : (unpackedOf t m e).neg = unpackedOf (-t) m e := by
    obtain rfl | hm := Nat.eq_zero_or_pos m
    · rfl
    · rw [unpackedOf_pos _ hm, unpackedOf_pos _ hm]
      rfl
  rw [hmodel, h, hneg, unpack_pack _ hc, if_pos he]

theorem unpack_abs (hx : x.isFinite = true) :
    x.abs.toModel.unpack = unpackedOf .positive (FloatParts.ofFloat x).mant (FloatParts.ofFloat x).exp := by
  have hmodel : x.abs.toModel.unpack = (Float.Model.pack x.toModel.unpack.abs).unpack := rfl
  have habs (t : Sign) (m : ℕ) (e : ℤ) : (unpackedOf t m e).abs = unpackedOf .positive m e := by
    unfold unpackedOf
    split <;> rfl
  rw [hmodel, unpack_of_isFinite hx, FloatParts.unpacked, habs, unpack_pack _ (canonical_ofFloat x),
    if_pos (exp_le_of_isFinite hx)]

theorem HasParts.unpack_withSign (h : HasParts x m e) (negative : Bool) :
    (withSign negative x).toModel.unpack = unpackedOf (signOf negative) m e := by
  cases negative with
  | false => exact h.unpack
  | true => exact unpack_neg h.canonical h.exp_le h.unpack

theorem whole_eq_of_exp_nonneg (p : FloatParts) (h : 0 ≤ p.exp) :
    (p.whole : ℚ) = magnitude p.mant p.exp := by
  have hwhole : p.whole = p.mant * 2 ^ p.exp.toNat := by
    rw [FloatParts.whole, show (-p.exp).toNat = 0 by omega]
    exact Nat.div_one _
  rw [hwhole, Nat.cast_mul, Nat.cast_pow, magnitude, Nat.cast_ofNat, ← zpow_natCast]
  congr 2
  omega

theorem whole_le_mant (p : FloatParts) (h : p.exp < 0) : p.whole ≤ p.mant := by
  rw [FloatParts.whole, show p.exp.toNat = 0 by omega]
  exact (Nat.div_le_self _ _).trans (Nat.mul_one _).le

theorem magnitude_of_fract (h : (fract x == 0) = true) :
    (FloatParts.ofFloat x).whole = magnitude (FloatParts.ofFloat x).mant (FloatParts.ofFloat x).exp := by
  have hfinite := isFinite_of_fract h
  have hunpack := unpack_of_isFinite hfinite
  have hc := canonical_ofFloat x
  by_cases hexp : 0 ≤ (FloatParts.ofFloat x).exp
  · exact whole_eq_of_exp_nonneg _ hexp
  · generalize hp : FloatParts.ofFloat x = p at hunpack hc hexp ⊢
    obtain ⟨m, e, hparts, hvalue⟩ := ofNat_exact ((whole_le_mant p (not_le.mp hexp)).trans_lt hc.lt)
    have htrunc : trunc x = withSign p.negative (Float.ofNat p.whole) := by
      rw [trunc, roundWith, if_pos hfinite, hp]
      exact if_neg hexp
    obtain ⟨t, n, l, hcanonical, hsub, hzero⟩ := exists_sub hc hparts.canonical (signOf p.negative)
      (signOf p.negative)
    have hmodel : fract x = .ofModel (Float.Model.pack (unpackedOf t n l)) := by
      rw [← hsub, ← hparts.unpack_withSign, ← htrunc]
      show Float.ofModel (Float.Model.pack (sub .binary64 x.toModel.unpack (trunc x).toModel.unpack)) = _
      rw [hunpack]
      rfl
    rw [hmodel] at h
    have hsigned := hzero (pack_beq_zero hcanonical h)
    rw [← hvalue]
    unfold signedMagnitude at hsigned
    cases hneg : p.negative <;> rw [hneg] at hsigned <;> simp [signOf, Sign.apply] at hsigned <;>
      exact hsigned.symm

/-- **Integer parts** are the numbers that have no fraction, but for negative zero. -/
theorem ofInt_truncInt (h : (fract x == 0) = true) (hwhole : (FloatParts.ofFloat x).whole < 2 ^ 53)
    (hzero : x ≠ negativeZero) : Float.ofInt (truncInt x) = x := by
  have hfinite := isFinite_of_fract h
  have hunpack := unpack_of_isFinite hfinite
  have hc := canonical_ofFloat x
  have hvalue := magnitude_of_fract h
  rw [truncInt, if_pos hfinite]
  generalize hp : FloatParts.ofFloat x = p at hunpack hc hvalue hwhole ⊢
  obtain ⟨m, e, hparts, hvalue'⟩ := ofNat_exact hwhole
  obtain ⟨rfl, rfl⟩ := magnitude_inj hparts.canonical hc (hvalue'.trans hvalue)
  have hsigned : (withSign p.negative (Float.ofNat p.whole)).toModel.unpack = x.toModel.unpack := by
    rw [hparts.unpack_withSign, hunpack]
    rfl
  have hx := eq_of_unpack hfinite hsigned.symm
  dsimp only
  cases hneg : p.negative with
  | false =>
    rw [hneg] at hx
    exact hx.symm
  | true =>
    rw [hneg] at hx
    cases hw : p.whole with
    | zero =>
      rw [hw] at hx
      exact absurd (hx.trans rfl) hzero
    | succ n =>
      rw [hw] at hx
      exact hx.symm

theorem whole_lt_of_abs_lt (h : (fract x == 0) = true) (hlt : x.abs < integerBound) :
    (FloatParts.ofFloat x).whole < 2 ^ 53 := by
  have hfinite := isFinite_of_fract h
  have hc := canonical_ofFloat x
  by_cases hexp : (FloatParts.ofFloat x).exp < 0
  · exact (whole_le_mant _ hexp).trans_lt hc.lt
  · -- the significand is full, so that the exponent is zero
    have hfull : 2 ^ 52 ≤ (FloatParts.ofFloat x).mant := hc.full.resolve_right (by omega)
    have hpos : 0 < (FloatParts.ofFloat x).mant := by omega
    have habs := (unpack_abs hfinite).trans (unpackedOf_pos _ hpos _)
    have hnumber : x.abs.isNaN = false := by
      show x.abs.toModel.unpack.isNaN = false
      rw [habs]
      rfl
    have hrank : rank x.abs < toLex (1, toLex (1, 2 ^ 52)) := (lt_iff_rank hnumber (by decide)).mp hlt
    rw [rank, habs] at hrank
    have hzero : (FloatParts.ofFloat x).exp = 0 := by
      rcases Prod.Lex.toLex_lt_toLex.mp hrank with hone | ⟨-, hrest⟩
      · exact absurd hone (lt_irrefl _)
      · rcases Prod.Lex.toLex_lt_toLex.mp hrest with hone | ⟨-, hmant⟩ <;> omega
    have hwhole := whole_eq_of_exp_nonneg (FloatParts.ofFloat x) hzero.ge
    rw [hzero, magnitude, zpow_zero, mul_one] at hwhole
    rw [Nat.cast_inj.mp hwhole]
    exact hc.lt

end

end ChartTemplate
