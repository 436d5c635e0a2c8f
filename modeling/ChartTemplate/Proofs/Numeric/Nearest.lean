import ChartTemplate.Proofs.Numeric.Packing

/-!
# Rounding to nearest

The results of arithmetic are rounded by dropping bits of a significand, of which two more bits say
where the exact value lies (`Represents`). `roundWithAccuracy_eq` : what comes out is a number of
canonical parts that is nearest to the exact value (`Nearest`). It is not below a number that the value
has reached, and not above a number from which the value is less than halfway to the next one, or is
halfway if the number is even.
-/

namespace ChartTemplate

open Float.Model (UnpackedFloat totalExponent)
open Float.Model.UnpackedFloat

/-! ## Dropped bits -/

/-- The exact value whose integer part and the bits after it are known. -/
def Represents (em : ExtendedMantissa) (v : ℚ) : Prop :=
  match em.roundBit, em.stickyBit with
  | false, false => v = em.mantissa
  | false, true => em.mantissa < v ∧ v < em.mantissa + 1 / 2
  | true, false => v = em.mantissa + 1 / 2
  | true, true => em.mantissa + 1 / 2 < v ∧ v < em.mantissa + 1

theorem represents_exact (m : ℕ) : Represents (.ofMantissaAndAccuracy m .exact) m := rfl

theorem represents_fraction (q r d : ℕ) (h : r < d) :
    Represents (.ofMantissaAndAccuracy q (accuracyOfFraction r d)) (q + r / d) := by
  have hd : (0 : ℚ) < d := by exact_mod_cast Nat.pos_of_ne_zero (by omega)
  have hr : (r : ℚ) / d < 1 := by
    rw [div_lt_one hd]
    exact_mod_cast h
  unfold accuracyOfFraction
  split
  · rename_i hzero
    subst hzero
    show (q : ℚ) + (0 : ℕ) / d = q
    simp
  · rename_i hpos
    have hrpos : (0 : ℚ) < r / d := div_pos (by exact_mod_cast Nat.pos_of_ne_zero hpos) hd
    rcases lt_trichotomy (2 * r) d with hlt | heq | hgt
    · rw [compare_lt_iff_lt.mpr hlt]
      have : (r : ℚ) / d < 1 / 2 := by
        rw [div_lt_div_iff₀ hd two_pos]
        have : (2 * r : ℚ) < d := by exact_mod_cast hlt
        linarith
      show (q : ℚ) < q + r / d ∧ (q : ℚ) + r / d < q + 1 / 2
      exact ⟨by linarith, by linarith⟩
    · rw [compare_eq_iff_eq.mpr heq]
      have : (r : ℚ) / d = 1 / 2 := by
        rw [div_eq_div_iff hd.ne' two_ne_zero]
        have : (2 * r : ℚ) = d := by exact_mod_cast heq
        linarith
      show (q : ℚ) + r / d = q + 1 / 2
      rw [this]
    · rw [compare_gt_iff_gt.mpr hgt]
      have : 1 / 2 < (r : ℚ) / d := by
        rw [div_lt_div_iff₀ two_pos hd]
        have : (d : ℚ) < 2 * r := by exact_mod_cast hgt
        linarith
      show (q : ℚ) + 1 / 2 < q + r / d ∧ (q : ℚ) + r / d < q + 1
      exact ⟨by linarith, by linarith⟩

namespace Represents

variable {em : ExtendedMantissa} {v : ℚ}

theorem le (h : Represents em v) : em.mantissa ≤ v := by
  obtain ⟨m, r, s⟩ := em
  cases r <;> cases s <;> simp only [Represents] at h ⊢ <;> linarith

theorem lt (h : Represents em v) : v < em.mantissa + 1 := by
  obtain ⟨m, r, s⟩ := em
  cases r <;> cases s <;> simp only [Represents] at h ⊢ <;> linarith

theorem shiftRightOne (h : Represents em v) : Represents em.shiftRightOne (v / 2) := by
  obtain ⟨m, r, s⟩ := em
  have hdiv := Nat.mod_add_div m 2
  have hcast : (m : ℚ) = (m % 2 : ℕ) + 2 * (m / 2 : ℕ) := by exact_mod_cast hdiv.symm
  simp only [ExtendedMantissa.shiftRightOne]
  rcases Nat.mod_two_eq_zero_or_one m with hbit | hbit <;> rw [hbit] at hcast ⊢ <;>
    cases r <;> cases s <;> simp [Represents] at h hcast ⊢ <;> try constructor
  all_goals linarith

theorem shiftRight (h : Represents em v) (n : ℕ) : Represents (em >>> n) (v / 2 ^ n) := by
  show Represents (n.repeat ExtendedMantissa.shiftRightOne em) _
  induction n with
  | zero => simpa [Nat.repeat] using h
  | succ n ih =>
    rw [Nat.repeat, pow_succ, div_mul_eq_div_div]
    exact ih.shiftRightOne

theorem roundedMantissa_le (h : Represents em v) {m : ℕ}
    (hv : v < m + 1 / 2 ∨ v = m + 1 / 2 ∧ m % 2 = 0) : em.roundedMantissa ≤ m := by
  have hle : em.mantissa ≤ m := by
    have hlt : (em.mantissa : ℚ) < (m + 1 : ℕ) := by
      push_cast
      have := h.le
      rcases hv with hv | ⟨hv, -⟩ <;> linarith
    exact Nat.lt_succ_iff.mp (by exact_mod_cast hlt)
  obtain ⟨m', r, s⟩ := em
  change m' ≤ m at hle
  obtain rfl | hlt := hle.eq_or_lt
  · cases r <;> cases s <;> simp only [Represents] at h
    · exact le_rfl
    · exact le_rfl
    · rcases hv with hv | ⟨-, heven⟩
      · linarith
      · show m' + m' % 2 ≤ m'
        omega
    · rcases hv with hv | ⟨hv, -⟩ <;> linarith
  · have hmod := Nat.mod_lt m' two_pos
    cases r <;> cases s
    · exact hlt.le
    · exact hlt.le
    · show m' + m' % 2 ≤ m
      omega
    · exact hlt

theorem le_roundedMantissa (h : Represents em v) {m : ℕ} (hv : m ≤ v) : m ≤ em.roundedMantissa := by
  have hlt : (m : ℚ) < (em.mantissa + 1 : ℕ) := by
    push_cast
    exact hv.trans_lt h.lt
  have hle : m ≤ em.mantissa := Nat.lt_succ_iff.mp (by exact_mod_cast hlt)
  refine hle.trans ?_
  obtain ⟨m', r, s⟩ := em
  cases r <;> cases s
  · exact le_rfl
  · exact le_rfl
  · exact Nat.le_add_right _ _
  · exact Nat.le_succ _

end Represents

/-! ## The nearest number -/

/-- The value of a significand and an exponent. -/
def magnitude (m : ℕ) (e : ℤ) : ℚ :=
  m * 2 ^ e

theorem two_zpow_pos (e : ℤ) : (0 : ℚ) < 2 ^ e :=
  zpow_pos two_pos e

theorem magnitude_le_magnitude {m m' : ℕ} (h : m ≤ m') (e : ℤ) : magnitude m e ≤ magnitude m' e :=
  mul_le_mul_of_nonneg_right (by exact_mod_cast h) (two_zpow_pos e).le

theorem magnitude_le_of_exp_lt {m m' : ℕ} {e e' : ℤ} (hm : m ≤ 2 ^ 53) (hm' : 2 ^ 52 ≤ m')
    (he : e < e') : magnitude m e ≤ magnitude m' e' := by
  have hpow : (2 : ℚ) ^ e * 2 ≤ 2 ^ e' := by
    rw [← zpow_add_one₀ two_ne_zero]
    exact zpow_le_zpow_right₀ one_le_two he
  have hmq : (m : ℚ) ≤ 2 ^ 52 * 2 := by exact_mod_cast hm
  have hmq' : (2 : ℚ) ^ 52 ≤ m' := by exact_mod_cast hm'
  calc (m : ℚ) * 2 ^ e
    _ ≤ 2 ^ 52 * 2 * 2 ^ e := mul_le_mul_of_nonneg_right hmq (two_zpow_pos e).le
    _ = 2 ^ 52 * (2 ^ e * 2) := by ring
    _ ≤ 2 ^ 52 * 2 ^ e' := mul_le_mul_of_nonneg_left hpow (by positivity)
    _ ≤ m' * 2 ^ e' := mul_le_mul_of_nonneg_right hmq' (two_zpow_pos e').le

/-- The value is below halfway from a number to the one above it, or halfway if the number is even. -/
def BelowHalf (v : ℚ) (m : ℕ) (e : ℤ) : Prop :=
  v < (m + 1 / 2) * 2 ^ e ∨ v = (m + 1 / 2) * 2 ^ e ∧ m % 2 = 0

/-- The number that a value is rounded to, bounded by the numbers below the value and by those from which
the value is below halfway to the next one. -/
structure Nearest (v : ℚ) (m : ℕ) (e : ℤ) : Prop where
  canonical : Canonical m e
  le_of_belowHalf : ∀ m' e', Canonical m' e' → BelowHalf v m' e' → magnitude m e ≤ magnitude m' e'
  ge_of_le : ∀ m' e', Canonical m' e' → magnitude m' e' ≤ v → magnitude m' e' ≤ magnitude m e

/-- What the bits that were dropped at some exponent say about a value. -/
structure Dropped (em : ExtendedMantissa) (e : ℤ) (v : ℚ) : Prop where
  represents : Represents em (v / 2 ^ e)
  least : -1074 ≤ e
  lt : v < 2 ^ 53 * 2 ^ e
  full : 2 ^ 52 * 2 ^ e ≤ v ∨ e = -1074

namespace Dropped

variable {em : ExtendedMantissa} {e : ℤ} {v : ℚ}

theorem roundedMantissa_le (h : Dropped em e v) : em.roundedMantissa ≤ 2 ^ 53 := by
  refine h.represents.roundedMantissa_le (.inl ?_)
  rw [div_lt_iff₀ (two_zpow_pos e)]
  have := two_zpow_pos e
  have := h.lt
  push_cast
  nlinarith

theorem full_roundedMantissa (h : Dropped em e v) : 2 ^ 52 ≤ em.roundedMantissa ∨ e = -1074 := by
  refine h.full.imp_left fun hfull => h.represents.le_roundedMantissa ?_
  rw [le_div_iff₀ (two_zpow_pos e)]
  exact_mod_cast hfull

theorem le_of_belowHalf (h : Dropped em e v) {m' : ℕ} {e' : ℤ} (hc : Canonical m' e')
    (hv : BelowHalf v m' e') : magnitude em.roundedMantissa e ≤ magnitude m' e' := by
  have hpos := two_zpow_pos e
  rcases lt_trichotomy e e' with hlt | rfl | hgt
  · have hfull : 2 ^ 52 ≤ m' := hc.full.resolve_right (by have := h.least; omega)
    exact magnitude_le_of_exp_lt h.roundedMantissa_le hfull hlt
  · refine magnitude_le_magnitude (h.represents.roundedMantissa_le ?_) e
    rw [div_lt_iff₀ hpos, div_eq_iff hpos.ne']
    exact hv
  · -- the value has a full significand at the greater exponent
    exfalso
    have hfull := h.full.resolve_right (by have := hc.le; omega)
    have hpow : (2 : ℚ) ^ e' * 2 ≤ 2 ^ e := by
      rw [← zpow_add_one₀ two_ne_zero]
      exact zpow_le_zpow_right₀ one_le_two hgt
    have hpos' := two_zpow_pos e'
    have hm' : (m' : ℚ) + 1 ≤ 2 ^ 53 := by exact_mod_cast hc.lt
    have hle : v ≤ (m' + 1 / 2) * 2 ^ e' := hv.elim le_of_lt fun hv => hv.1.le
    nlinarith

theorem ge_of_le (h : Dropped em e v) {m' : ℕ} {e' : ℤ} (hc : Canonical m' e')
    (hv : magnitude m' e' ≤ v) : magnitude m' e' ≤ magnitude em.roundedMantissa e := by
  have hpos := two_zpow_pos e
  rcases lt_trichotomy e e' with hlt | rfl | hgt
  · exfalso
    have hfull : 2 ^ 52 ≤ m' := hc.full.resolve_right (by have := h.least; omega)
    have hpow : (2 : ℚ) ^ e * 2 ≤ 2 ^ e' := by
      rw [← zpow_add_one₀ two_ne_zero]
      exact zpow_le_zpow_right₀ one_le_two hlt
    have hm' : (2 : ℚ) ^ 52 ≤ m' := by exact_mod_cast hfull
    have := h.lt
    unfold magnitude at hv
    nlinarith
  · refine magnitude_le_magnitude (h.represents.le_roundedMantissa ?_) e
    rwa [le_div_iff₀ hpos]
  · have hfull := h.full_roundedMantissa.resolve_right (by have := hc.le; omega)
    exact magnitude_le_of_exp_lt hc.lt.le hfull hgt

end Dropped

theorem Nearest.of_magnitude_eq {v : ℚ} {m m' : ℕ} {e e' : ℤ} (hc : Canonical m' e')
    (h : magnitude m' e' = magnitude m e)
    (hle : ∀ m' e', Canonical m' e' → BelowHalf v m' e' → magnitude m e ≤ magnitude m' e')
    (hge : ∀ m' e', Canonical m' e' → magnitude m' e' ≤ v → magnitude m' e' ≤ magnitude m e) :
    Nearest v m' e' :=
  ⟨hc, fun _ _ hc hv => h ▸ hle _ _ hc hv, fun _ _ hc hv => h ▸ hge _ _ hc hv⟩

/-! ## Rounding -/

theorem targetExponent_eq (t : ℤ) :
    Float.Model.Format.binary64.targetExponent t = max (t - 53) (-1074) := rfl

theorem mantissa_ofMantissaAndAccuracy (m : ℕ) (acc : Accuracy) :
    (ExtendedMantissa.ofMantissaAndAccuracy m acc).mantissa = m := by
  cases acc with
  | exact => rfl
  | inexact o => cases o <;> rfl

theorem shiftToTargetExponent_eq {m : ℕ} {e : ℤ} {acc : Accuracy}
    (he : e ≤ max (totalExponent m e - 53) (-1074)) :
    shiftToTargetExponent .binary64 m e acc =
      (ExtendedMantissa.ofMantissaAndAccuracy m acc >>>
        (max (totalExponent m e - 53) (-1074) - e).toNat, max (totalExponent m e - 53) (-1074)) := by
  rw [shiftToTargetExponent, targetExponent_eq, shiftToExponent]
  refine Prod.ext rfl ?_
  show e + ((max (totalExponent m e - 53) (-1074) - e).toNat : ℤ) = _
  omega

theorem dropped_shift {m : ℕ} {e : ℤ} {acc : Accuracy} {v : ℚ}
    (hv : Represents (.ofMantissaAndAccuracy m acc) v)
    (he : e ≤ max (totalExponent m e - 53) (-1074)) :
    Dropped (shiftToTargetExponent .binary64 m e acc).1 (shiftToTargetExponent .binary64 m e acc).2
      (v * 2 ^ e) := by
  rw [shiftToTargetExponent_eq he]
  have hlow : (m : ℚ) ≤ v := mantissa_ofMantissaAndAccuracy m acc ▸ hv.le
  have hhigh : v < m + 1 := mantissa_ofMantissaAndAccuracy m acc ▸ hv.lt
  have htotal : totalExponent m e = m.log2 + 1 + e := rfl
  rw [htotal] at he ⊢
  generalize ht : max ((m.log2 : ℤ) + 1 + e - 53) (-1074) = t at he
  have hpow (k : ℕ) : (2 : ℚ) ^ k * 2 ^ e = 2 ^ ((k : ℤ) + e) := by
    rw [zpow_add₀ two_ne_zero, zpow_natCast]
  refine ⟨?_, by show -1074 ≤ t; omega, ?_, ?_⟩
  · have hsplit : (2 : ℚ) ^ t = 2 ^ (t - e).toNat * 2 ^ e := by
      rw [hpow]
      congr 1
      omega
    rw [hsplit, mul_div_mul_right _ _ (two_zpow_pos e).ne']
    exact hv.shiftRight _
  · have hlog : (m : ℚ) + 1 ≤ 2 ^ (m.log2 + 1) := by exact_mod_cast Nat.lt_log2_self
    calc v * 2 ^ e
      _ < 2 ^ (m.log2 + 1) * 2 ^ e :=
        mul_lt_mul_of_pos_right (hhigh.trans_le hlog) (two_zpow_pos e)
      _ = 2 ^ (((m.log2 + 1 : ℕ) : ℤ) + e) := hpow _
      _ ≤ 2 ^ (53 + t) := zpow_le_zpow_right₀ one_le_two (by omega)
      _ = 2 ^ 53 * 2 ^ t := zpow_add₀ two_ne_zero 53 t
  · by_cases hleast : t = -1074
    · exact .inr hleast
    · left
      have hlog : (2 : ℚ) ^ m.log2 ≤ m := by
        exact_mod_cast Nat.log2_self_le (by rintro rfl; simp at ht; omega)
      calc (2 : ℚ) ^ 52 * 2 ^ t
        _ = 2 ^ (52 + t) := (zpow_add₀ two_ne_zero 52 t).symm
        _ = 2 ^ ((m.log2 : ℤ) + e) := by congr 1; omega
        _ = 2 ^ m.log2 * 2 ^ e := (hpow _).symm
        _ ≤ v * 2 ^ e := mul_le_mul_of_nonneg_right (hlog.trans hlow) (two_zpow_pos e).le

/-- A rounded significand that has become too long is halved. -/
theorem canonical_shift {m : ℕ} {e : ℤ} (hm : m ≤ 2 ^ 53) (hle : -1074 ≤ e)
    (hfull : 2 ^ 52 ≤ m ∨ e = -1074) :
    let shifted := shiftToTargetExponent .binary64 m e .exact
    Canonical shifted.1.mantissa shifted.2 ∧
      magnitude shifted.1.mantissa shifted.2 = magnitude m e := by
  have htotal : totalExponent m e = m.log2 + 1 + e := rfl
  obtain hlt | rfl := hm.lt_or_eq
  · have htarget : max (totalExponent m e - 53) (-1074) = e := by
      have hlog : m.log2 ≤ 52 := by
        obtain rfl | hpos := Nat.eq_zero_or_pos m
        · exact Nat.zero_le _
        · exact Nat.lt_succ_iff.mp ((Nat.log2_lt hpos.ne').mpr hlt)
      rcases hfull with hfull | rfl
      · have := (Nat.le_log2 (by omega)).mpr hfull
        omega
      · omega
    rw [shiftToTargetExponent_eq htarget.ge, htarget, Int.sub_self]
    exact ⟨⟨hlt, hle, hfull⟩, rfl⟩
  · have htarget : max (totalExponent (2 ^ 53) e - 53) (-1074) = e + 1 := by
      rw [htotal, Nat.log2_two_pow]
      omega
    rw [shiftToTargetExponent_eq (by omega), htarget, show (e + 1 - e).toNat = 1 by omega]
    show Canonical (2 ^ 53 / 2) (e + 1) ∧ ((2 ^ 53 / 2 : ℕ) : ℚ) * 2 ^ (e + 1) = (2 ^ 53 : ℕ) * 2 ^ e
    refine ⟨⟨by decide, by omega, .inl (by decide)⟩, ?_⟩
    rw [zpow_add_one₀ two_ne_zero]
    norm_num
    ring

/-- **Rounding** gives the nearest number. -/
theorem roundWithAccuracy_eq (s : Sign) {m : ℕ} {e : ℤ} {acc : Accuracy} {v : ℚ}
    (hv : Represents (.ofMantissaAndAccuracy m acc) v)
    (he : e ≤ max (totalExponent m e - 53) (-1074)) :
    ∃ m' e', Nearest (v * 2 ^ e) m' e' ∧
      roundWithAccuracy .binary64 s m e acc = unpackedOf s m' e' := by
  have hdropped := dropped_shift hv he
  obtain ⟨hc, hmag⟩ := canonical_shift hdropped.roundedMantissa_le hdropped.least
    hdropped.full_roundedMantissa
  exact ⟨_, _, .of_magnitude_eq hc hmag (fun _ _ => hdropped.le_of_belowHalf)
    (fun _ _ => hdropped.ge_of_le), rfl⟩

end ChartTemplate
