import ChartTemplate.Proofs.Numeric.Integers
import ChartTemplate.Proofs.Numeric.Leading

/-!
# Shortest digits are read back

A decimal that `FloatParts.readsBack` accepts lies between the halfway points to the neighbours of a number,
and so the number is the one nearest to it (`FloatParts.nearest_of_between`). The search for the shortest
digits does not end before it has found such a decimal: on the grid 17 places behind the leading digit, the
number cut off is one (`FloatParts.readsBack_cut`). So the shortest digits of a number are read back as the
number (`rounds_shortest`).
-/

namespace ChartTemplate

namespace FloatParts

variable {p : FloatParts} {n : ℕ} {k : ℤ} {v : ℚ}

/-! ## Between halfway points -/

theorem compareScaled_iff (n m : ℕ) (k q : ℤ) :
    (compareScaled n k m q = .lt ↔ (n : ℚ) * 10 ^ k < m * 2 ^ q) ∧
      (compareScaled n k m q = .eq ↔ (n : ℚ) * 10 ^ k = m * 2 ^ q) ∧
      (compareScaled n k m q = .gt ↔ (m : ℚ) * 2 ^ q < n * 10 ^ k) := by
  have hunit : (0 : ℚ) < 10 ^ (-k).toNat * 2 ^ (-q).toNat := by positivity
  have hleft : (n : ℚ) * 10 ^ k =
      ((n * 10 ^ k.toNat * 2 ^ (-q).toNat : ℕ) : ℚ) / (10 ^ (-k).toNat * 2 ^ (-q).toNat) := by
    rw [zpow_eq_div (by norm_num : (10 : ℚ) ≠ 0)]
    push_cast
    field_simp
  have hright : (m : ℚ) * 2 ^ q =
      ((m * 2 ^ q.toNat * 10 ^ (-k).toNat : ℕ) : ℚ) / (10 ^ (-k).toNat * 2 ^ (-q).toNat) := by
    rw [zpow_eq_div two_ne_zero]
    push_cast
    field_simp
  rw [hleft, hright, div_lt_div_iff_of_pos_right hunit, div_lt_div_iff_of_pos_right hunit,
    div_left_inj' hunit.ne', Nat.cast_lt, Nat.cast_lt, Nat.cast_inj]
  exact ⟨compare_lt_iff_lt, compare_eq_iff_eq, compare_gt_iff_gt⟩

/-- Halfway to the neighbour below, in units of the last bit. -/
def lowerHalf (p : FloatParts) : ℚ :=
  if p.narrowBelow then p.mant - 1 / 4 else p.mant - 1 / 2

/-- **What reads back** lies between the halfway points, or is one of them if the number is even. -/
theorem readsBack_iff (hm : 0 < p.mant) : p.readsBack n k = true ↔
    (p.lowerHalf * 2 ^ p.exp < n * 10 ^ k ∨ p.lowerHalf * 2 ^ p.exp = n * 10 ^ k ∧ p.mant % 2 = 0) ∧
      BelowHalf (n * 10 ^ k) p.mant p.exp := by
  have hlow : (((if p.narrowBelow then 4 * p.mant - 1 else 4 * p.mant - 2 : ℕ) : ℚ)) * 2 ^ (p.exp - 2) =
      p.lowerHalf * 2 ^ p.exp := by
    rw [zpow_sub₀ two_ne_zero, lowerHalf]
    split <;> rw [Nat.cast_sub (by omega)] <;> push_cast <;> ring
  have hhigh : ((4 * p.mant + 2 : ℕ) : ℚ) * 2 ^ (p.exp - 2) = (p.mant + 1 / 2) * 2 ^ p.exp := by
    rw [zpow_sub₀ two_ne_zero]
    push_cast
    ring
  obtain ⟨-, hloweq, hlowgt⟩ :=
    compareScaled_iff n (if p.narrowBelow then 4 * p.mant - 1 else 4 * p.mant - 2) k (p.exp - 2)
  obtain ⟨hhighlt, hhigheq, -⟩ := compareScaled_iff n (4 * p.mant + 2) k (p.exp - 2)
  rw [hlow] at hloweq hlowgt
  rw [hhigh] at hhighlt hhigheq
  simp only [readsBack, BelowHalf, Bool.and_eq_true, Bool.or_eq_true, beq_iff_eq, hlowgt, hloweq, hhighlt, hhigheq]
  rw [and_comm (a := p.mant % 2 = 0), and_comm (a := p.mant % 2 = 0), eq_comm (a := p.lowerHalf * _)]

theorem narrowBelow_iff (x : Float) : (ofFloat x).narrowBelow = true ↔
    (ofFloat x).mant = 2 ^ 52 ∧ -1074 < (ofFloat x).exp := by
  have hsig := significandField_lt x
  have hpow : powTwo 52 = 2 ^ 52 := rfl
  simp only [ofFloat, Bool.and_eq_true, beq_iff_eq, decide_eq_true_eq]
  split <;> omega

/-! ## The nearest number -/

section

variable {m : ℕ} {e : ℤ}

theorem le_of_magnitude_le (hc : Canonical m e) (hv : BelowHalf v m e) {m' : ℕ} {e' : ℤ} (hc' : Canonical m' e')
    (hle : magnitude m' e' ≤ v) : magnitude m' e' ≤ magnitude m e := by
  by_contra hlt
  rw [not_le] at hlt
  have hnext : magnitude (m + 1) e ≤ magnitude m' e' := by
    rcases lt_or_eq_of_magnitude_lt hc hc' hlt with hexp | ⟨rfl, hmant⟩
    · exact magnitude_le_of_exp_lt hc.lt (hc'.full.resolve_right (by have := hc.le; omega)) hexp
    · exact magnitude_le_magnitude (by omega) e
  have hhalf : v ≤ (m + 1 / 2) * 2 ^ e := hv.elim le_of_lt fun hv => hv.1.le
  have hstep : ((m : ℚ) + 1 / 2) * 2 ^ e < magnitude (m + 1) e := by
    refine mul_lt_mul_of_pos_right ?_ (two_zpow_pos e)
    push_cast
    linarith
  exact absurd (hle.trans hhalf) (not_le.2 (hstep.trans_le hnext))

/-- Halfway to the neighbour below, in units of the last bit. -/
def IsLowerHalf (low : ℚ) (m : ℕ) (e : ℤ) : Prop :=
  low = m - 1 / 4 ∧ m = 2 ^ 52 ∨ low = m - 1 / 2 ∧ (m = 2 ^ 52 → e = -1074)

/-- Halfway from a smaller number to the next is at most halfway from the neighbour, and less if both
numbers are even. -/
theorem IsLowerHalf.half_le {low : ℚ} (hlow : IsLowerHalf low m e) (hc : Canonical m e) {m' : ℕ} {e' : ℤ}
    (hc' : Canonical m' e') (hlt : magnitude m' e' < magnitude m e) :
    ((m' : ℚ) + 1 / 2) * 2 ^ e' ≤ low * 2 ^ e ∧
      (m' % 2 = 0 → m % 2 = 0 → ((m' : ℚ) + 1 / 2) * 2 ^ e' < low * 2 ^ e) := by
  have hpos := two_zpow_pos e
  rcases lt_or_eq_of_magnitude_lt hc' hc hlt with hexp | ⟨rfl, hmant⟩
  · have hfull : 2 ^ 52 ≤ m := hc.full.resolve_right (by have := hc'.le; omega)
    have hpos' := two_zpow_pos e'
    have hdouble : (2 : ℚ) ^ e' * 2 ≤ 2 ^ e := by
      rw [← zpow_add_one₀ two_ne_zero]
      exact zpow_le_zpow_right₀ one_le_two hexp
    rcases hlow with ⟨rfl, rfl⟩ | ⟨rfl, hleast⟩
    · have hodd : (m' : ℚ) + 1 ≤ 2 ^ 53 := by exact_mod_cast hc'.lt
      refine ⟨by push_cast; nlinarith, fun heven _ => ?_⟩
      have hgap : (m' : ℚ) + 2 ≤ 2 ^ 53 := by
        have := hc'.lt
        exact_mod_cast (show m' + 2 ≤ 2 ^ 53 by omega)
      push_cast
      nlinarith
    · have hne : m ≠ 2 ^ 52 := fun hm => by have := hleast hm; have := hc'.le; omega
      have hgreater : (2 : ℚ) ^ 52 + 1 ≤ m := by exact_mod_cast (show 2 ^ 52 + 1 ≤ m by omega)
      have hsmall : (m' : ℚ) + 1 ≤ 2 ^ 53 := by exact_mod_cast hc'.lt
      have hstrict : ((m' : ℚ) + 1 / 2) * 2 ^ e' < (m - 1 / 2) * 2 ^ e := by nlinarith
      exact ⟨hstrict.le, fun _ _ => hstrict⟩
  · have hstep : (m' : ℚ) + 1 ≤ m := by exact_mod_cast (show m' + 1 ≤ m by omega)
    rcases hlow with ⟨rfl, -⟩ | ⟨rfl, -⟩
    · have hstrict : ((m' : ℚ) + 1 / 2) * 2 ^ e' < (m - 1 / 4) * 2 ^ e' :=
        mul_lt_mul_of_pos_right (by linarith) hpos
      exact ⟨hstrict.le, fun _ _ => hstrict⟩
    · refine ⟨mul_le_mul_of_nonneg_right (by linarith) hpos.le, fun heven heven' => ?_⟩
      have hgap : (m' : ℚ) + 2 ≤ m := by exact_mod_cast (show m' + 2 ≤ m by omega)
      exact mul_lt_mul_of_pos_right (by linarith) hpos

/-- **The nearest number** to what lies between the halfway points of a number. -/
theorem nearest_of_between {low : ℚ} (hlow : IsLowerHalf low m e) (hc : Canonical m e)
    (habove : low * 2 ^ e < v ∨ low * 2 ^ e = v ∧ m % 2 = 0) (hbelow : BelowHalf v m e) : Nearest v m e where
  canonical := hc
  le_of_belowHalf m' e' hc' hv' := by
    by_contra hlt
    obtain ⟨hle, hstrict⟩ := hlow.half_le hc hc' (not_le.1 hlt)
    rcases habove with habove | ⟨habove, heven⟩ <;> rcases hv' with hv' | ⟨hv', heven'⟩
    · linarith
    · linarith
    · linarith
    · linarith [hstrict heven' heven]
  ge_of_le m' e' hc' hle := le_of_magnitude_le hc hbelow hc' hle

end

theorem isLowerHalf_ofFloat (x : Float) :
    IsLowerHalf (ofFloat x).lowerHalf (ofFloat x).mant (ofFloat x).exp := by
  have hnarrow := narrowBelow_iff x
  have hle := (canonical_ofFloat x).le
  unfold lowerHalf
  split
  · rename_i h
    exact .inl ⟨rfl, (hnarrow.1 h).1⟩
  · rename_i h
    refine .inr ⟨rfl, fun hm => ?_⟩
    have := mt hnarrow.2 h
    omega

/-! ## The search -/

variable {tie : Tie}

/-- The search ends with what reads back if a grid in its range has such a number. -/
theorem readsBack_shortestFrom {fuel : ℕ} {k : ℤ} {i : ℕ} (hi : i < fuel)
    (hgrid : (p.onGrid? tie (k - i)).isSome = true) :
    p.readsBack (p.shortestFrom tie fuel k).1 (p.shortestFrom tie fuel k).2 = true := by
  induction fuel generalizing k i with
  | zero => omega
  | succ fuel ih =>
    rw [shortestFrom]
    cases hfirst : p.onGrid? tie k with
    | some n => exact readsBack_of_onGrid? hfirst
    | none =>
      obtain ⟨i, rfl⟩ : ∃ j, i = j + 1 := by
        refine ⟨i - 1, ?_⟩
        rcases i with - | i
        · rw [Nat.cast_zero, sub_zero, hfirst] at hgrid
          cases hgrid
        · omega
      refine ih (i := i) (by omega) ?_
      rwa [show k - 1 - (i : ℤ) = k - (i + 1 : ℕ) by push_cast; ring]

theorem isSome_onGrid? (h : p.readsBack ((p.scaled (-k)).1 / (p.scaled (-k)).2) k = true) :
    (p.onGrid? tie k).isSome = true := by
  unfold onGrid?
  dsimp only
  rw [h]
  cases p.readsBack ((p.scaled (-k)).1 / (p.scaled (-k)).2 + 1) k <;> rfl

theorem readsBack_cut (hm : 0 < p.mant) (hk : (10 : ℚ) ^ k < 1 / 4 * 2 ^ p.exp) :
    p.readsBack ((p.scaled (-k)).1 / (p.scaled (-k)).2) k = true := by
  have hpos := two_zpow_pos p.exp
  have hden : (0 : ℚ) < (p.scaled (-k)).2 := by exact_mod_cast scaled_pos p (-k)
  have hdiv := scaled_div p (-k)
  rw [zpow_neg, ← div_eq_mul_inv] at hdiv
  have hcut : (((p.scaled (-k)).1 / (p.scaled (-k)).2 : ℕ) : ℚ) ≤ magnitude p.mant p.exp / 10 ^ k :=
    hdiv ▸ Nat.cast_div_le
  have hrest : magnitude p.mant p.exp / 10 ^ k < ((p.scaled (-k)).1 / (p.scaled (-k)).2 : ℕ) + 1 := by
    rw [← hdiv, div_lt_iff₀ hden]
    exact_mod_cast Nat.lt_mul_of_div_lt (Nat.lt_succ_self _) (scaled_pos p (-k))
  rw [le_div_iff₀ (ten_zpow_pos k)] at hcut
  rw [div_lt_iff₀ (ten_zpow_pos k)] at hrest
  rw [readsBack_iff hm]
  generalize ((p.scaled (-k)).1 / (p.scaled (-k)).2 : ℕ) = n at hcut hrest ⊢
  rw [magnitude] at hcut hrest
  constructor
  · left
    have hlower : p.lowerHalf ≤ p.mant - 1 / 4 := by
      unfold lowerHalf
      split <;> linarith
    nlinarith
  · left
    nlinarith

end FloatParts

theorem ten_zpow_lt_quarter {m : ℕ} {e : ℤ} (hm : 0 < m) (hc : Canonical m e) :
    (10 : ℚ) ^ (leading (magnitude m e) - (17 : ℕ)) < 1 / 4 * 2 ^ e := by
  have hlead := ten_zpow_leading_le (FloatParts.magnitude_pos (e := e) hm)
  have hlt : (m : ℚ) < 2 ^ 53 := by exact_mod_cast hc.lt
  have hpos := two_zpow_pos e
  rw [zpow_sub₀ (by norm_num), zpow_natCast, div_lt_iff₀ (by norm_num)]
  calc (10 : ℚ) ^ leading (magnitude m e)
    _ ≤ m * 2 ^ e := hlead
    _ < 2 ^ 53 * 2 ^ e := mul_lt_mul_of_pos_right hlt hpos
    _ < 1 / 4 * 10 ^ 17 * 2 ^ e := mul_lt_mul_of_pos_right (by norm_num) hpos
    _ = 1 / 4 * 2 ^ e * 10 ^ 17 := by ring

section

variable (tie : Tie) {x : Float}

theorem shortest_between (hfinite : x.isFinite = true) (hm : 0 < (FloatParts.ofFloat x).mant) :
    ((FloatParts.ofFloat x).lowerHalf * 2 ^ (FloatParts.ofFloat x).exp < (Decimal.shortest tie x).value ∨
        (FloatParts.ofFloat x).lowerHalf * 2 ^ (FloatParts.ofFloat x).exp = (Decimal.shortest tie x).value ∧
          (FloatParts.ofFloat x).mant % 2 = 0) ∧
      BelowHalf (Decimal.shortest tie x).value (FloatParts.ofFloat x).mant (FloatParts.ofFloat x).exp := by
  have hc := canonical_ofFloat x
  have hexp := exp_le_of_isFinite hfinite
  unfold Decimal.shortest
  generalize FloatParts.ofFloat x = p at hm hc hexp
  have hfine : (10 : ℚ) ^ (p.leadExponent - (17 : ℕ)) < 1 / 4 * 2 ^ p.exp := by
    rw [FloatParts.leadExponent_eq hm hc hexp]
    exact ten_zpow_lt_quarter hm hc
  have hreads : p.readsBack (p.shortestFrom tie 18 p.leadExponent).1
      (p.shortestFrom tie 18 p.leadExponent).2 = true :=
    FloatParts.readsBack_shortestFrom (show 17 < 18 by decide)
      (FloatParts.isSome_onGrid? (FloatParts.readsBack_cut hm hfine))
  dsimp only
  rw [if_neg hm.ne', value_ofScaled]
  exact (FloatParts.readsBack_iff hm).1 hreads

/-- **The shortest digits** of a finite number are read back as the number without its sign. -/
theorem rounds_shortest (hfinite : x.isFinite = true) : Rounds x.abs (Decimal.shortest tie x).value := by
  have hc := canonical_ofFloat x
  have hbetween := shortest_between tie hfinite
  refine ⟨(FloatParts.ofFloat x).mant, (FloatParts.ofFloat x).exp, ?_, ?_⟩
  · rcases Nat.eq_zero_or_pos (FloatParts.ofFloat x).mant with hm | hm
    · have hleast : (FloatParts.ofFloat x).exp = -1074 := hc.full.resolve_left (by omega)
      have hshortest : Decimal.shortest tie x = ⟨[0], 0⟩ := if_pos hm
      have hzero : (Decimal.mk [0] 0).value = 0 := by simp [Decimal.value, ofDigits]
      rw [hshortest, hzero, hm, hleast]
      exact nearest_zero
    · obtain ⟨habove, hbelow⟩ := hbetween hm
      exact FloatParts.nearest_of_between (FloatParts.isLowerHalf_ofFloat x) hc habove hbelow
  · rw [unpack_abs hfinite, if_pos (exp_le_of_isFinite hfinite)]

theorem shortest_bounds (hfinite : x.isFinite = true) (hm : 0 < (FloatParts.ofFloat x).mant) :
    magnitude (FloatParts.ofFloat x).mant (FloatParts.ofFloat x).exp / 2 ≤ (Decimal.shortest tie x).value ∧
      (Decimal.shortest tie x).value ≤
        3 / 2 * magnitude (FloatParts.ofFloat x).mant (FloatParts.ofFloat x).exp := by
  obtain ⟨habove, hbelow⟩ := shortest_between tie hfinite hm
  generalize FloatParts.ofFloat x = p at hm habove hbelow ⊢
  have hone : (1 : ℚ) ≤ p.mant := by exact_mod_cast hm
  have hpos := two_zpow_pos p.exp
  have hlower : (p.mant : ℚ) / 2 ≤ p.lowerHalf := by
    unfold FloatParts.lowerHalf
    split <;> linarith
  have hlow := habove.elim le_of_lt fun h => h.1.le
  have hhigh : (Decimal.shortest tie x).value ≤ (p.mant + 1 / 2) * 2 ^ p.exp := hbelow.elim le_of_lt fun h => h.1.le
  rw [magnitude]
  constructor <;> nlinarith

end

end ChartTemplate
