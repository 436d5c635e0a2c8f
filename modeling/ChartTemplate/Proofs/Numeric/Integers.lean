import ChartTemplate.Proofs.Numeric.Exact

/-!
# Integers as numbers

An integer of less than 53 bits is a number (`toInt64Clamped_ofInt`), and the numbers of two such
integers are compared as the integers are (`ofInt_lt_ofInt_iff`).
-/

namespace ChartTemplate

open Float.Model (UnpackedFloat)

/-- An integer of less than 53 bits. -/
def IsSmall (n : ℤ) : Prop :=
  n.natAbs < 2 ^ 53

section

variable {x : Float} {s : UnpackedFloat.Sign} {m n : ℕ} {e : ℤ}

theorem isFinite_of_unpack (h : x.toModel.unpack = unpackedOf s m e) : x.isFinite = true := by
  show x.toModel.unpack.isFinite = true
  rw [h]
  unfold unpackedOf
  split <;> rfl

theorem whole_of_unpack (h : x.toModel.unpack = unpackedOf s m e) (hvalue : magnitude m e = n) :
    (FloatParts.ofFloat x).whole = n ∧ (n ≠ 0 → signOf (FloatParts.ofFloat x).negative = s) := by
  have hunpack := unpack_of_isFinite (isFinite_of_unpack h)
  rw [h, FloatParts.unpacked] at hunpack
  have hmagnitude : magnitude (FloatParts.ofFloat x).mant (FloatParts.ofFloat x).exp = n ∧
      (n ≠ 0 → signOf (FloatParts.ofFloat x).negative = s) := by
    unfold unpackedOf at hunpack
    split at hunpack <;> split at hunpack
    · rename_i hm hmant
      have hn : n = 0 := by
        rw [hm] at hvalue
        exact_mod_cast hvalue.symm.trans (magnitude_eq_zero_iff.2 rfl)
      rw [hmant, hn]
      exact ⟨by simp [magnitude], fun h => absurd rfl h⟩
    · cases hunpack
    · cases hunpack
    · obtain ⟨rfl, rfl, rfl⟩ := UnpackedFloat.finite.inj hunpack
      exact ⟨hvalue, fun _ => rfl⟩
  refine ⟨?_, hmagnitude.2⟩
  rw [FloatParts.whole]
  show _ * 2 ^ _ / 2 ^ _ = n
  rw [magnitude_eq_iff.1 hmagnitude.1, Nat.mul_div_cancel _ (by positivity)]

end

theorem Rounds.isNaN {x : Float} {v : ℚ} (h : Rounds x v) : x.isNaN = false := by
  obtain ⟨m, e, -, hunpack⟩ := h
  show x.toModel.unpack.isNaN = false
  rw [hunpack]
  split
  · exact isNaN_unpackedOf _ m e
  · rfl

theorem Rounds.isNaN_neg {x : Float} {v : ℚ} (h : Rounds x v) : (-x).isNaN = false := by
  obtain ⟨m, e, hnearest, hunpack⟩ := h
  show (-x).toModel.unpack.isNaN = false
  split at hunpack
  · rename_i he
    rw [unpack_neg hnearest.canonical he hunpack]
    exact isNaN_unpackedOf _ m e
  · show (Float.Model.pack x.toModel.unpack.neg).unpack.isNaN = false
    rw [hunpack]
    rfl

theorem isNaN_ofInt (n : ℤ) : (Float.ofInt n).isNaN = false := by
  cases n with
  | ofNat n => exact (rounds_ofNat n).isNaN
  | negSucc n => exact (rounds_ofNat (n + 1)).isNaN_neg

theorem unpack_ofInt {n : ℤ} (hn : IsSmall n) : ∃ m e, Canonical m e ∧ magnitude m e = n.natAbs ∧
    (Float.ofInt n).toModel.unpack = unpackedOf (signOf (decide (n < 0))) m e := by
  obtain ⟨m, e, hparts, hvalue⟩ := ofNat_exact hn
  refine ⟨m, e, hparts.canonical, hvalue, ?_⟩
  cases n with
  | ofNat n =>
    have hsign : decide (Int.ofNat n < 0) = false := decide_eq_false (Int.natCast_nonneg n).not_gt
    rw [hsign]
    exact hparts.unpack
  | negSucc n =>
    rw [decide_eq_true (Int.negSucc_lt_zero n)]
    exact unpack_neg hparts.canonical hparts.exp_le hparts.unpack

theorem truncInt_ofInt {n : ℤ} (hn : IsSmall n) : truncInt (Float.ofInt n) = n := by
  obtain ⟨m, e, -, hvalue, hunpack⟩ := unpack_ofInt hn
  obtain ⟨hwhole, hsign⟩ := whole_of_unpack hunpack hvalue
  rw [truncInt, if_pos (isFinite_of_unpack hunpack)]
  dsimp only
  rw [hwhole]
  by_cases hzero : n = 0
  · subst hzero
    simp
  · have hsign := hsign (Int.natAbs_ne_zero.2 hzero)
    by_cases hneg : n < 0
    · cases hbit : (FloatParts.ofFloat (Float.ofInt n)).negative with
      | true => rw [if_pos rfl]; omega
      | false => simp [hbit, hneg, signOf] at hsign
    · cases hbit : (FloatParts.ofFloat (Float.ofInt n)).negative with
      | true => simp [hbit, hneg, signOf] at hsign
      | false => rw [if_neg Bool.false_ne_true]; omega

theorem toInt64Clamped_ofInt {n : ℤ} (hn : IsSmall n) : toInt64Clamped (Float.ofInt n) = n := by
  obtain ⟨m, e, -, -, hunpack⟩ := unpack_ofInt hn
  rw [toInt64Clamped, clampInt, isNaN_ofInt n, isInf_of_isFinite (isFinite_of_unpack hunpack),
    truncInt_ofInt hn]
  unfold IsSmall at hn
  simp
  omega

theorem ofInt_injective {a b : ℤ} (ha : IsSmall a) (hb : IsSmall b) (h : Float.ofInt a = Float.ofInt b) :
    a = b := by
  rw [← truncInt_ofInt ha, h, truncInt_ofInt hb]

/-! ## Order -/

theorem lt_or_eq_of_magnitude_lt {m m' : ℕ} {e e' : ℤ} (h : Canonical m e) (h' : Canonical m' e')
    (hlt : magnitude m e < magnitude m' e') : e < e' ∨ e = e' ∧ (m : ℤ) < m' := by
  rcases lt_trichotomy e e' with he | rfl | he
  · exact .inl he
  · refine .inr ⟨rfl, ?_⟩
    by_contra hle
    exact absurd (magnitude_le_magnitude (by omega) e) (not_le.2 hlt)
  · exact absurd (magnitude_lt_of_exp_lt h' h he) hlt.not_gt

theorem rank_ofInt {n : ℤ} (hn : IsSmall n) : ∃ (m : ℕ) (e : ℤ), Canonical m e ∧ magnitude m e = n.natAbs ∧
    rank (Float.ofInt n) =
      if n < 0 then toLex (-1, toLex (-e, -(m : ℤ)))
      else if n = 0 then toLex (0, toLex (0, 0))
      else toLex (1, toLex (e, (m : ℤ))) := by
  obtain ⟨m, e, hc, hvalue, hunpack⟩ := unpack_ofInt hn
  refine ⟨m, e, hc, hvalue, ?_⟩
  have hzero : m = 0 ↔ n = 0 := by
    rw [← magnitude_eq_zero_iff (e := e), hvalue, Nat.cast_eq_zero, Int.natAbs_eq_zero]
  rw [rank, hunpack]
  by_cases hn : n = 0
  · rw [hzero.2 hn, hn]
    rfl
  · rw [unpackedOf_pos _ (Nat.pos_of_ne_zero fun hm => hn (hzero.1 hm))]
    by_cases hneg : n < 0
    · rw [decide_eq_true hneg, if_pos hneg]
      rfl
    · rw [decide_eq_false hneg, if_neg hneg, if_neg hn]
      rfl

theorem rank_ofInt_lt {a b : ℤ} (ha : IsSmall a) (hb : IsSmall b) (h : a < b) :
    rank (Float.ofInt a) < rank (Float.ofInt b) := by
  obtain ⟨m, e, hc, hvalue, hrank⟩ := rank_ofInt ha
  obtain ⟨m', e', hc', hvalue', hrank'⟩ := rank_ofInt hb
  rw [hrank, hrank']
  by_cases hneg : b < 0
  · have hlt : magnitude m' e' < magnitude m e := by
      rw [hvalue, hvalue', Nat.cast_lt]
      omega
    rw [if_pos hneg, if_pos (h.trans hneg), Prod.Lex.toLex_lt_toLex, Prod.Lex.toLex_lt_toLex]
    have horder := lt_or_eq_of_magnitude_lt hc' hc hlt
    dsimp only
    omega
  by_cases hpos : 0 < a
  · have hlt : magnitude m e < magnitude m' e' := by
      rw [hvalue, hvalue', Nat.cast_lt]
      omega
    rw [if_neg hpos.not_gt, if_neg hpos.ne', if_neg hneg, if_neg (hpos.trans h).ne',
      Prod.Lex.toLex_lt_toLex, Prod.Lex.toLex_lt_toLex]
    exact .inr ⟨rfl, lt_or_eq_of_magnitude_lt hc hc' hlt⟩
  · -- the sign of one is below the sign of the other
    rw [if_neg hneg]
    by_cases hlow : a < 0
    · rw [if_pos hlow]
      split <;> exact Prod.Lex.toLex_lt_toLex.2 (.inl (by simp))
    · rw [if_neg hlow, if_pos (by omega), if_neg (by omega)]
      exact Prod.Lex.toLex_lt_toLex.2 (.inl (by simp))

theorem ofInt_lt_ofInt_iff {a b : ℤ} (ha : IsSmall a) (hb : IsSmall b) :
    Float.ofInt a < Float.ofInt b ↔ a < b := by
  rw [lt_iff_rank (isNaN_ofInt a) (isNaN_ofInt b)]
  constructor
  · intro h
    by_contra hle
    rcases (not_lt.1 hle).eq_or_lt with rfl | hlt
    · exact lt_irrefl _ h
    · exact (rank_ofInt_lt hb ha hlt).not_gt h
  · intro h
    exact rank_ofInt_lt ha hb h

end ChartTemplate
