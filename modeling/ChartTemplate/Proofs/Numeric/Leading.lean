import ChartTemplate.Proofs.Numeric.Shortest
import Mathlib.Data.Int.Log

/-!
# The leading digit

`leading v` is the exponent of the first digit of a positive number, `10 ^ leading v ≤ v`. The logarithm
of two of a significand bounds it to within two of an estimate (`estimate_bounds`), and exact comparisons
decide, so `FloatParts.leadExponent` is this exponent (`leadExponent_eq`).
-/

namespace ChartTemplate

/-- The exponent of the leading digit of a positive number. -/
def leading (v : ℚ) : ℤ :=
  Int.log 10 v

theorem ten_zpow_pos (k : ℤ) : (0 : ℚ) < 10 ^ k :=
  zpow_pos (by norm_num) k

section

variable {v : ℚ} {k : ℤ}

theorem le_leading_iff (hv : 0 < v) : k ≤ leading v ↔ 10 ^ k ≤ v := by
  rw [leading, ← Int.zpow_le_iff_le_log (by norm_num) hv]
  norm_num

theorem leading_lt_iff (hv : 0 < v) : leading v < k ↔ v < 10 ^ k := by
  rw [← not_le, le_leading_iff hv, not_le]

theorem leading_eq_iff (hv : 0 < v) : leading v = k ↔ 10 ^ k ≤ v ∧ v < 10 ^ (k + 1) := by
  rw [← le_leading_iff hv, ← leading_lt_iff hv]
  omega

theorem ten_zpow_leading_le (hv : 0 < v) : 10 ^ leading v ≤ v :=
  (le_leading_iff hv).1 le_rfl

theorem lt_ten_zpow_leading (hv : 0 < v) : v < 10 ^ (leading v + 1) :=
  (leading_lt_iff hv).1 (Int.lt_succ _)

theorem leading_mul_zpow (hv : 0 < v) (k : ℤ) : leading (v * 10 ^ k) = leading v + k := by
  rw [leading_eq_iff (mul_pos hv (ten_zpow_pos k)), add_right_comm, zpow_add₀ (by norm_num),
    zpow_add₀ (by norm_num) _ k]
  exact ⟨mul_le_mul_of_nonneg_right (ten_zpow_leading_le hv) (ten_zpow_pos k).le,
    mul_lt_mul_of_pos_right (lt_ten_zpow_leading hv) (ten_zpow_pos k)⟩

end

/-! ## The estimate -/

/-- The estimate of the leading decimal digit of a number from the place of its leading bit. -/
def estimate (bits : ℤ) : ℤ :=
  (bits * 1233).fdiv 4096

/-- Whether a power of two is at most a power of ten. -/
def twoLeTen (a b : ℤ) : Bool :=
  decide (2 ^ a.toNat * 10 ^ (-b).toNat ≤ 10 ^ b.toNat * 2 ^ (-a).toNat)

/-- Whether a power of ten is at most a power of two. -/
def tenLeTwo (b a : ℤ) : Bool :=
  decide (10 ^ b.toNat * 2 ^ (-a).toNat ≤ 2 ^ a.toNat * 10 ^ (-b).toNat)

theorem twoLeTen_iff (a b : ℤ) : twoLeTen a b = true ↔ (2 : ℚ) ^ a ≤ 10 ^ b := by
  rw [twoLeTen, decide_eq_true_iff, zpow_eq_div two_ne_zero, zpow_eq_div (by norm_num : (10 : ℚ) ≠ 0),
    div_le_div_iff₀ (by positivity) (by positivity)]
  exact_mod_cast Iff.rfl

theorem tenLeTwo_iff (b a : ℤ) : tenLeTwo b a = true ↔ (10 : ℚ) ^ b ≤ 2 ^ a := by
  rw [tenLeTwo, decide_eq_true_iff, zpow_eq_div two_ne_zero, zpow_eq_div (by norm_num : (10 : ℚ) ≠ 0),
    div_le_div_iff₀ (by positivity) (by positivity)]
  exact_mod_cast Iff.rfl

theorem estimate_bounds {bits : ℤ} (hlow : -1074 ≤ bits) (hhigh : bits ≤ 1023) :
    (10 : ℚ) ^ (estimate bits - 2) ≤ 2 ^ bits ∧ (2 : ℚ) ^ (bits + 1) ≤ 10 ^ (estimate bits + 3) := by
  have hall : ∀ n < (2098 : ℕ), tenLeTwo (estimate (n - 1074) - 2) (n - 1074) = true ∧
      twoLeTen (n - 1074 + 1) (estimate (n - 1074) + 3) = true := by
    decide +kernel
  obtain ⟨n, rfl⟩ : ∃ n : ℕ, bits = (n : ℤ) - 1074 := ⟨(bits + 1074).toNat, by omega⟩
  rw [← tenLeTwo_iff, ← twoLeTen_iff]
  exact hall n (by omega)

/-! ## Parts -/

namespace FloatParts

variable {p : FloatParts}

theorem magnitude_pos {m : ℕ} {e : ℤ} (hm : 0 < m) : 0 < magnitude m e :=
  mul_pos (by exact_mod_cast hm) (two_zpow_pos e)

theorem powLe_iff (p : FloatParts) (k : ℤ) : p.powLe k = true ↔ 10 ^ k ≤ magnitude p.mant p.exp := by
  have hpos : (0 : ℚ) < (p.scaled (-k)).2 := by exact_mod_cast scaled_pos p (-k)
  have hscaled := scaled_div p (-k)
  rw [zpow_neg, ← div_eq_mul_inv] at hscaled
  calc p.powLe k = true ↔ (p.scaled (-k)).2 ≤ (p.scaled (-k)).1 := decide_eq_true_iff
    _ ↔ 1 ≤ ((p.scaled (-k)).1 : ℚ) / (p.scaled (-k)).2 := by
      rw [le_div_iff₀ hpos, one_mul]
      exact_mod_cast Iff.rfl
    _ ↔ 10 ^ k ≤ magnitude p.mant p.exp := by
      rw [hscaled, le_div_iff₀ (ten_zpow_pos k), one_mul]

theorem log2_bounds {m : ℕ} (hm : 0 < m) (e : ℤ) :
    (2 : ℚ) ^ ((m.log2 : ℤ) + e) ≤ magnitude m e ∧ magnitude m e < 2 ^ ((m.log2 : ℤ) + e + 1) := by
  have hlow : (2 : ℚ) ^ (m.log2 : ℤ) ≤ m := by
    rw [zpow_natCast]
    exact_mod_cast Nat.log2_self_le hm.ne'
  have hhigh : (m : ℚ) < 2 ^ ((m.log2 : ℤ) + 1) := by
    have := Nat.lt_log2_self (n := m)
    rw [show (m.log2 : ℤ) + 1 = ((m.log2 + 1 : ℕ) : ℤ) by push_cast; rfl, zpow_natCast]
    exact_mod_cast this
  rw [add_right_comm, zpow_add₀ two_ne_zero, zpow_add₀ two_ne_zero _ e, magnitude]
  exact ⟨mul_le_mul_of_nonneg_right hlow (two_zpow_pos e).le,
    mul_lt_mul_of_pos_right hhigh (two_zpow_pos e)⟩

theorem estimate_le_leading {m : ℕ} {e : ℤ} (hm : 0 < m) (hc : Canonical m e) (he : e ≤ 971) :
    estimate (m.log2 + e) - 2 ≤ leading (magnitude m e) ∧
      leading (magnitude m e) ≤ estimate (m.log2 + e) + 2 := by
  have hlog : m.log2 ≤ 52 := Nat.lt_succ_iff.1 ((Nat.log2_lt hm.ne').2 hc.lt)
  have hle := hc.le
  obtain ⟨hlow, hhigh⟩ := estimate_bounds (show -1074 ≤ (m.log2 : ℤ) + e by omega) (by omega)
  obtain ⟨hlow', hhigh'⟩ := log2_bounds hm e
  constructor
  · exact (le_leading_iff (magnitude_pos hm)).2 (hlow.trans hlow')
  · have hlt := (leading_lt_iff (magnitude_pos hm)).2 (hhigh'.trans_le hhigh)
    omega

/-- **The leading digit** of a number other than zero. -/
theorem leadExponent_eq (hm : 0 < p.mant) (hc : Canonical p.mant p.exp) (he : p.exp ≤ 971) :
    p.leadExponent = leading (magnitude p.mant p.exp) := by
  obtain ⟨hlow, hhigh⟩ := estimate_le_leading hm hc he
  have hpow (k : ℤ) : p.powLe k = true ↔ k ≤ leading (magnitude p.mant p.exp) := by
    rw [powLe_iff, le_leading_iff (magnitude_pos hm)]
  unfold leadExponent
  simp only [hpow]
  rw [estimate] at hlow hhigh
  split_ifs <;> omega

end FloatParts

end ChartTemplate
