import ChartTemplate.Proofs.Format.Rounded

/-!
# Guard digits

Digits are computed with thirty more than are kept, and are then rounded again. The second rounding goes
wrong only for a number a hair below a half in units of its last digit, which the first one has made a half.
No number is that near to a half without being one, if at most 21 digits are kept (`gap_below_half`): a
multiple `t` of `2 ^ e * 10 ^ k` is so near to a whole number that `t` times a half would have to be a whole
number as well (`gap_of_separates`). One multiple serves a cell of exponents, and Euclid's algorithm finds
one for every cell (`all_separated`).

So significant digits denote the number rounded to them (`value_significantDigits`).
-/

namespace ChartTemplate

/-! ## Multiples near to whole numbers -/

/-- The greatest ratio of a number in a cell to the corner of the cell. -/
def cellScale : ℕ :=
  2 ^ 19 * 10 ^ 5

/-- Whether a multiple of a fraction is so near to a whole number that no significand times a number in the
cell of the fraction is a hair below a half. -/
def separates (num den t : ℕ) : Bool :=
  let d := min (t * num % den) (den - t * num % den)
  decide (t * den + 2 * 10 ^ 31 * (2 ^ 53 * cellScale) * d < 10 ^ 31 * den) &&
    (t % 2 == 1 || d == 0 && t != 0)

theorem exists_distance (n : ℕ) {den : ℕ} (hden : 0 < den) :
    ∃ a : ℤ, |(n : ℤ) - a * den| = (min (n % den) (den - n % den) : ℕ) := by
  have hsplit := Nat.div_add_mod n den
  have hlt := Nat.mod_lt n hden
  generalize n / den = q, n % den = r at hsplit hlt ⊢
  have hsplit : (n : ℤ) = den * q + r := by exact_mod_cast hsplit.symm
  rcases Nat.le_total r (den - r) with hle | hle
  · refine ⟨q, ?_⟩
    rw [min_eq_left hle, show (n : ℤ) - q * den = r by linarith]
    exact abs_of_nonneg r.cast_nonneg
  · refine ⟨q + 1, ?_⟩
    rw [min_eq_right hle, show (n : ℤ) - (q + 1) * den = -(den - r : ℕ) by push_cast [hlt.le]; linarith]
    exact (abs_neg _).trans (abs_of_nonneg (Nat.cast_nonneg _))

section

variable {num den t d m β : ℕ}

theorem lt_half_of_margin (hden : 0 < den)
    (hmargin : t * den + 2 * 10 ^ 31 * (2 ^ 53 * cellScale) * d < 10 ^ 31 * den) :
    (t : ℚ) * (1 / (2 * 10 ^ 31)) + 2 ^ 53 * cellScale * (d / den) < 1 / 2 := by
  have hdenq : (0 : ℚ) < den := by exact_mod_cast hden
  have hq : (t : ℚ) * den + 2 * 10 ^ 31 * (2 ^ 53 * cellScale) * d < 10 ^ 31 * den := by
    exact_mod_cast hmargin
  rw [mul_one_div, ← mul_div_assoc, div_add_div _ _ (by norm_num) hdenq.ne',
    div_lt_div_iff₀ (by positivity) two_pos]
  linarith

/-- Significands and places in a cell make a distance greater, but not by more than the greatest of them. -/
theorem abs_scaled_le (hm : m ≤ 2 ^ 53) (hβ : β ≤ cellScale) (ρ : ℚ) :
    |(m : ℚ) * β * ρ| ≤ 2 ^ 53 * cellScale * |ρ| := by
  have hmq : (m : ℚ) ≤ 2 ^ 53 := by exact_mod_cast hm
  have hβq : (β : ℚ) ≤ cellScale := by exact_mod_cast hβ
  rw [abs_mul, abs_of_nonneg (by positivity)]
  gcongr

theorem odd_mul_sub_even_ne_zero (ht : t % 2 = 1) (n a : ℤ) : (t : ℤ) * (2 * n + 1) - 2 * a ≠ 0 := by
  have hodd : Odd ((t : ℤ) * (2 * n + 1)) :=
    Odd.mul (by exact_mod_cast Nat.odd_iff.2 ht) (odd_two_mul_add_one n)
  intro hzero
  rw [sub_eq_zero.1 hzero] at hodd
  exact (Int.not_odd_iff_even.2 (even_two_mul _)) hodd

/-- **A multiple near to a whole number** keeps significands away from halves. -/
theorem gap_of_separates (hden : 0 < den) (ht : separates num den t = true) (hm : m ≤ 2 ^ 53)
    (hβ : β ≤ cellScale) {n : ℤ} (hn : 0 < (n : ℚ) + 1 / 2 - m * (β * (num / den))) :
    1 / (2 * 10 ^ 31) < (n : ℚ) + 1 / 2 - m * (β * (num / den)) := by
  obtain ⟨a, ha⟩ := exists_distance (t * num) hden
  simp only [separates, Bool.and_eq_true, decide_eq_true_eq, Bool.or_eq_true, beq_iff_eq, bne_iff_ne] at ht
  generalize min (t * num % den) (den - t * num % den) = d at ha ht
  obtain ⟨hmargin, hodd⟩ := ht
  generalize hδ : (n : ℚ) + 1 / 2 - m * (β * (num / den)) = δ at hn ⊢
  by_contra hsmall
  rw [not_lt] at hsmall
  have hdenq : (0 : ℚ) < den := by exact_mod_cast hden
  have hdist : |((t : ℚ) * num - a * den) / den| = d / den := by
    rw [abs_div, abs_of_pos hdenq]
    congr 1
    exact_mod_cast ha
  -- Twice the multiple of the half is near to an even whole number, and so is equal to it.
  have htwice : ((t * (2 * n + 1) - 2 * (m * β * a) : ℤ) : ℚ) =
      2 * (t * δ + m * β * ((t * num - a * den) / den)) := by
    rw [← hδ]
    push_cast
    field_simp
    ring
  have hzero : (t * (2 * n + 1) - 2 * (m * β * a) : ℤ) = 0 := by
    have hterm := abs_scaled_le hm hβ (((t : ℚ) * num - a * den) / den)
    have hhalf := lt_half_of_margin hden hmargin
    have hfirst : (t : ℚ) * δ ≤ t * (1 / (2 * 10 ^ 31)) := mul_le_mul_of_nonneg_left hsmall t.cast_nonneg
    have hnonneg : 0 ≤ (t : ℚ) * δ := mul_nonneg t.cast_nonneg hn.le
    rw [hdist, abs_le] at hterm
    have habs : |((t * (2 * n + 1) - 2 * (m * β * a) : ℤ) : ℚ)| < 1 := by
      rw [htwice, abs_lt]
      constructor <;> linarith
    rw [← Int.abs_lt_one_iff]
    exact_mod_cast habs
  rcases hodd with hodd | ⟨rfl, hpos⟩
  · exact odd_mul_sub_even_ne_zero hodd n _ hzero
  · -- The multiple is a whole number: then there is no distance at all.
    rw [Nat.cast_zero, zero_div, abs_eq_zero] at hdist
    rw [hzero, hdist, mul_zero, add_zero, Int.cast_zero] at htwice
    have htq : (0 : ℚ) < t := by exact_mod_cast Nat.pos_of_ne_zero hpos
    have := mul_pos htq hn
    linarith

end

/-! ## Cells of exponents -/

/-- Whether a test holds of the denominator of a convergent of a fraction, found by Euclid's algorithm. -/
def someDenominator (test : ℕ → Bool) : ℕ → ℕ → ℕ → ℕ → ℕ → Bool
  | 0, _, _, _, _ => false
  | fuel + 1, a, b, q, q' =>
    test q' || b != 0 && someDenominator test fuel b (a % b) q' (a / b * q' + q)

theorem exists_of_someDenominator {test : ℕ → Bool} {fuel a b q q' : ℕ}
    (h : someDenominator test fuel a b q q' = true) : ∃ t, test t = true := by
  induction fuel generalizing a b q q' with
  | zero => cases h
  | succ fuel ih =>
    rw [someDenominator, Bool.or_eq_true, Bool.and_eq_true] at h
    rcases h with htest | ⟨-, hrest⟩
    · exact ⟨q', htest⟩
    · exact ih hrest

/-- The numerator of `2 ^ e * 10 ^ k`. -/
def scaleNum (e k : ℤ) : ℕ :=
  2 ^ e.toNat * 10 ^ k.toNat

/-- The denominator of `2 ^ e * 10 ^ k`. -/
def scaleDen (e k : ℤ) : ℕ :=
  2 ^ (-e).toNat * 10 ^ (-k).toNat

theorem scale_div (e k : ℤ) : (scaleNum e k : ℚ) / scaleDen e k = 2 ^ e * 10 ^ k := by
  rw [zpow_eq_div two_ne_zero, zpow_eq_div (by norm_num : (10 : ℚ) ≠ 0) k, div_mul_div_comm]
  push_cast [scaleNum, scaleDen]
  rfl

theorem scaleDen_pos (e k : ℤ) : 0 < scaleDen e k := by
  unfold scaleDen
  positivity

/-- Whether the cell with a corner has a multiple that keeps significands away from halves. -/
def separated (e k : ℤ) : Bool :=
  someDenominator (separates (scaleNum e k) (scaleDen e k)) 80 (scaleDen e k)
    (scaleNum e k % scaleDen e k) 0 1

/-- **Every cell** that numbers of up to 21 digits need has such a multiple. -/
theorem all_separated : ∀ c < (105 : ℕ), ∀ r < (6 : ℕ),
    separated (20 * c - 1126) (6 * r - estimate (20 * c - 1055) - 2) = true := by
  decide +kernel

theorem gap_of_separated {e k : ℤ} (h : separated e k = true) {i j : ℕ} (hi : i < 20) (hj : j < 6) {m : ℕ}
    (hm : m ≤ 2 ^ 53) {n : ℤ} (hn : 0 < (n : ℚ) + 1 / 2 - m * (2 ^ (e + i) * 10 ^ (k + j))) :
    1 / (2 * 10 ^ 31) < (n : ℚ) + 1 / 2 - m * (2 ^ (e + i) * 10 ^ (k + j)) := by
  obtain ⟨t, ht⟩ := exists_of_someDenominator h
  have hcell : (2 : ℚ) ^ (e + i) * 10 ^ (k + j) = (2 ^ i * 10 ^ j : ℕ) * (scaleNum e k / scaleDen e k) := by
    rw [scale_div, zpow_add₀ two_ne_zero, zpow_add₀ (by norm_num), zpow_natCast, zpow_natCast]
    push_cast
    ring
  have hscale : 2 ^ i * 10 ^ j ≤ cellScale :=
    Nat.mul_le_mul (Nat.pow_le_pow_right two_pos (by omega)) (Nat.pow_le_pow_right (by norm_num) (by omega))
  rw [hcell] at hn ⊢
  exact gap_of_separates (scaleDen_pos e k) ht hm hscale hn

theorem exists_full {m : ℕ} {e : ℤ} (hm : 0 < m) (hc : Canonical m e) (he : e ≤ 971) :
    ∃ (m' : ℕ) (e' : ℤ), magnitude m' e' = magnitude m e ∧ m' ≤ 2 ^ 53 ∧ e' + 52 = m.log2 + e ∧
      -1126 ≤ e' ∧ e' ≤ 971 := by
  have hlog : m.log2 ≤ 52 := Nat.lt_succ_iff.1 ((Nat.log2_lt hm.ne').2 hc.lt)
  have hle := hc.le
  refine ⟨m * 2 ^ (52 - m.log2), e - (52 - m.log2 : ℕ), magnitude_shift _ _ _, ?_, by omega, by omega, by omega⟩
  calc m * 2 ^ (52 - m.log2)
    _ ≤ 2 ^ (m.log2 + 1) * 2 ^ (52 - m.log2) := Nat.mul_le_mul_right _ Nat.lt_log2_self.le
    _ = 2 ^ 53 := by rw [← pow_add]; congr 1; omega

/-- **No number is a hair below a half** in units of one of its first 21 digits. -/
theorem gap_below_half {m : ℕ} {e : ℤ} (hm : 0 < m) (hc : Canonical m e) (he : e ≤ 971) {s : ℕ} (hs : s ≤ 20)
    {n : ℤ} (hn : 0 < (n : ℚ) + 1 / 2 - magnitude m e * 10 ^ (s - leading (magnitude m e))) :
    1 / (2 * 10 ^ 31) < (n : ℚ) + 1 / 2 - magnitude m e * 10 ^ (s - leading (magnitude m e)) := by
  obtain ⟨hlow, hhigh⟩ := FloatParts.estimate_le_leading hm hc he
  obtain ⟨m', e', hvalue, hm', hbits, hmin, hmax⟩ := exists_full hm hc he
  rw [← hbits] at hlow hhigh
  generalize leading (magnitude m e) = lead at hn hlow hhigh ⊢
  rw [← hvalue, magnitude, mul_assoc] at hn ⊢
  -- The cell of the exponents: the estimate is that of the greatest exponent of its column.
  obtain ⟨c, i, hc, hi, rfl⟩ : ∃ c i : ℕ, c < 105 ∧ i < 20 ∧ e' = 20 * c - 1126 + i :=
    ⟨((e' + 1126) / 20).toNat, ((e' + 1126) % 20).toNat, by omega, by omega, by omega⟩
  obtain ⟨r, j, hr, hj, hk⟩ : ∃ r j : ℕ, r < 6 ∧ j < 6 ∧
      s - lead = 6 * r - estimate (20 * c - 1055) - 2 + j := by
    have hshift : 0 ≤ s - lead + estimate (20 * c - 1055) + 2 ∧
        s - lead + estimate (20 * c - 1055) + 2 < 36 := by
      simp only [estimate, Int.fdiv_eq_ediv_of_nonneg _ (show (0 : ℤ) ≤ 4096 by decide)] at hlow hhigh ⊢
      omega
    exact ⟨((s - lead + estimate (20 * c - 1055) + 2) / 6).toNat,
      ((s - lead + estimate (20 * c - 1055) + 2) % 6).toNat, by omega, by omega, by omega⟩
  rw [hk] at hn ⊢
  exact gap_of_separated (all_separated c hc r hr) hi hj hm' hn

/-! ## Rounding twice -/

/-- A number rounded to significant digits, halves upward. -/
def rounded (v : ℚ) (count : ℕ) : ℚ :=
  ⌊v * 10 ^ ((count : ℤ) - 1 - leading v) + 1 / 2⌋ * 10 ^ (leading v + 1 - count)

theorem round_ten_zpow {lead unit : ℤ} (hle : unit ≤ lead) :
    (⌊(10 : ℚ) ^ lead * 10 ^ (-unit) + 1 / 2⌋ : ℚ) * 10 ^ unit = 10 ^ lead := by
  obtain ⟨j, rfl⟩ : ∃ j : ℕ, lead = unit + j := ⟨(lead - unit).toNat, by omega⟩
  have hwhole : (10 : ℚ) ^ (unit + j) * 10 ^ (-unit) = ((10 ^ j : ℤ) : ℚ) := by
    rw [← zpow_add₀ (by norm_num), show unit + j + -unit = (j : ℤ) by ring, zpow_natCast]
    push_cast
    rfl
  have hhalf : ⌊(1 : ℚ) / 2⌋ = 0 := by norm_num
  rw [hwhole, Int.floor_intCast_add, hhalf, add_zero, zpow_add₀ (by norm_num), zpow_natCast]
  push_cast
  ring

theorem rounded_eq {w : ℚ} {lead : ℤ} (hlow : 10 ^ lead ≤ w) (hhigh : w ≤ 10 ^ (lead + 1)) {count : ℕ}
    (hcount : 0 < count) :
    rounded w count = ⌊w * 10 ^ ((count : ℤ) - 1 - lead) + 1 / 2⌋ * 10 ^ (lead + 1 - count) := by
  have hpos : 0 < w := (ten_zpow_pos lead).trans_le hlow
  rcases hhigh.lt_or_eq with hlt | rfl
  · rw [rounded, (leading_eq_iff hpos).2 ⟨hlow, hlt⟩]
  · have hlead : leading ((10 : ℚ) ^ (lead + 1)) = lead + 1 :=
      (leading_eq_iff hpos).2 ⟨le_rfl, zpow_lt_zpow_right₀ (by norm_num) (Int.lt_succ _)⟩
    rw [rounded, hlead, show (count : ℤ) - 1 - (lead + 1) = -(lead + 1 + 1 - count) by ring,
      show (count : ℤ) - 1 - lead = -(lead + 1 - count) by ring, round_ten_zpow (by omega),
      round_ten_zpow (by omega)]

theorem floor_half_eq {y z δ : ℚ} (hle : z ≤ y + δ)
    (hreach : ∀ N : ℤ, (N : ℚ) - 1 / 2 ≤ y → (N : ℚ) - 1 / 2 ≤ z)
    (hgap : ∀ N : ℤ, 0 < (N : ℚ) + 1 / 2 - y → δ < (N : ℚ) + 1 / 2 - y) :
    ⌊z + 1 / 2⌋ = ⌊y + 1 / 2⌋ := by
  have hlow := Int.floor_le (y + 1 / 2)
  have hhigh := Int.lt_floor_add_one (y + 1 / 2)
  have hbelow := hreach ⌊y + 1 / 2⌋ (by linarith)
  have habove := hgap ⌊y + 1 / 2⌋ (by linarith)
  rw [Int.floor_eq_iff]
  constructor <;> linarith

theorem floor_half_guarded {y : ℚ} {n : ℕ} (hn : n ≤ y * 10 ^ 31 + 1 / 2)
    (hreach : ∀ k : ℕ, (k : ℚ) ≤ y * 10 ^ 31 → k ≤ n)
    (hgap : ∀ N : ℤ, 0 < (N : ℚ) + 1 / 2 - y → 1 / (2 * 10 ^ 31) < (N : ℚ) + 1 / 2 - y) :
    ⌊(n : ℚ) / 10 ^ 31 + 1 / 2⌋ = ⌊y + 1 / 2⌋ := by
  have hpow : (0 : ℚ) < 10 ^ 31 := by positivity
  refine floor_half_eq (δ := 1 / (2 * 10 ^ 31)) ?_ (fun N hN => ?_) hgap
  · rw [div_le_iff₀ hpow]
    linarith
  · -- A half is a whole number in units of the last guard digit.
    rw [le_div_iff₀ hpow]
    rcases le_or_gt N 0 with hneg | hpos
    · have : (N : ℚ) ≤ 0 := by exact_mod_cast hneg
      nlinarith [n.cast_nonneg (α := ℚ)]
    · obtain ⟨k, hk⟩ : ∃ k : ℕ, (2 * N - 1) * (5 * 10 ^ 30) = (k : ℤ) :=
        ⟨_, (Int.toNat_of_nonneg (by omega)).symm⟩
      have hkq : ((N : ℚ) - 1 / 2) * 10 ^ 31 = k := by
        rw [show ((k : ℕ) : ℚ) = ((k : ℤ) : ℚ) from (Int.cast_natCast k).symm, ← hk]
        push_cast
        ring
      rw [hkq]
      exact_mod_cast hreach k (hkq ▸ mul_le_mul_of_nonneg_right hN hpow.le)

/-- Rounding to guard digits first makes no difference, unless a number is a hair below a half. -/
theorem Expands.rounded_eq {v : ℚ} (hv : 0 < v) {c n : ℕ} (hn : Expands v (c + 1 + guardDigits) n)
    (hgap : ∀ N : ℤ, 0 < (N : ℚ) + 1 / 2 - v * 10 ^ ((c : ℤ) - leading v) →
      1 / (2 * 10 ^ 31) < (N : ℚ) + 1 / 2 - v * 10 ^ ((c : ℤ) - leading v)) :
    rounded (n * 10 ^ (leading v - (c + 1 + guardDigits : ℕ))) (c + 1) = rounded v (c + 1) := by
  obtain ⟨hlow, hhigh, hle, hreach⟩ := hn
  have hvlow := ten_zpow_leading_le hv
  have hvhigh := lt_ten_zpow_leading hv
  generalize leading v = lead at hle hreach hgap hvlow hvhigh ⊢
  have hcast (k : ℕ) : ((10 ^ (c + 1 + guardDigits + k) : ℕ) : ℚ) * 10 ^ (lead - (c + 1 + guardDigits : ℕ)) =
      10 ^ (lead + k) := by
    push_cast
    rw [← zpow_natCast, ← zpow_add₀ (by norm_num)]
    congr 1
    push_cast
    ring
  have hunit := (ten_zpow_pos (lead - (c + 1 + guardDigits : ℕ))).le
  have hwlow : (10 : ℚ) ^ lead ≤ n * 10 ^ (lead - (c + 1 + guardDigits : ℕ)) := by
    have hscaled := mul_le_mul_of_nonneg_right (Nat.cast_le (α := ℚ).2 hlow) hunit
    simpa using (hcast 0).symm.trans_le hscaled
  have hwhigh : (n : ℚ) * 10 ^ (lead - (c + 1 + guardDigits : ℕ)) ≤ 10 ^ (lead + 1) := by
    have hscaled := mul_le_mul_of_nonneg_right (Nat.cast_le (α := ℚ).2 hhigh) hunit
    exact_mod_cast hscaled.trans_eq (hcast 1)
  -- In units of the last digit that is kept, the guard digits stand behind the point.
  have hguard : v * 10 ^ (((c + 1 + guardDigits : ℕ) : ℤ) - lead) = v * 10 ^ ((c : ℤ) - lead) * 10 ^ 31 := by
    rw [mul_assoc, ← zpow_natCast, ← zpow_add₀ (by norm_num)]
    congr 2
    push_cast [guardDigits]
    ring
  have hpoint : (n : ℚ) * 10 ^ (lead - (c + 1 + guardDigits : ℕ)) * 10 ^ ((c : ℤ) - lead) = n / 10 ^ 31 := by
    rw [mul_assoc, ← zpow_add₀ (by norm_num), div_eq_mul_inv, ← zpow_natCast, ← zpow_neg]
    congr 2
    push_cast [guardDigits]
    ring
  rw [ChartTemplate.rounded_eq hvlow hvhigh.le c.succ_pos, ChartTemplate.rounded_eq hwlow hwhigh c.succ_pos,
    show ((c + 1 : ℕ) : ℤ) - 1 - lead = c - lead by push_cast; ring, hpoint]
  rw [hguard] at hle hreach
  rw [floor_half_guarded hle hreach hgap]

/-- **Significant digits** denote the number rounded to them. -/
theorem value_significantDigits {x : Float} (hfinite : x.isFinite = true) (hx : 0 < absValue x) {count : ℕ}
    (hcount : 0 < count) (hle : count ≤ 21) :
    (significantDigits x count).value = rounded (absValue x) count := by
  obtain ⟨c, rfl⟩ : ∃ c, count = c + 1 := ⟨count - 1, by omega⟩
  obtain ⟨hleading, hlength, n, hn, hvalue⟩ := exists_expand hfinite hx (c + 1 + guardDigits)
  obtain ⟨-, -, hround⟩ := Decimal.roundTo_spec hleading hcount (by omega)
  obtain ⟨-, hlead⟩ := hleading.leading_value
  rw [significantDigits_of_pos hfinite hx, hround, ← hlead, ← rounded, hvalue]
  exact hn.rounded_eq hx fun N => gap_below_half (mant_pos_of_absValue hx) (canonical_ofFloat x)
    (exp_le_of_isFinite hfinite) (by omega)

end ChartTemplate
