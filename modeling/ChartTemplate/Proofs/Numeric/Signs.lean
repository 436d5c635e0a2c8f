import ChartTemplate.Proofs.Numeric.Integers

/-!
# Signs of products and quotients

By `rank`, all numbers but NaN stand in a row, and NaN stands with zero. A product of naturals does not
stand below zero (`rank_ofNat_mul`). A magnitude divided by what does not stand above zero does not stand
above zero either, unless the divisor is zero and the quotient infinite (`rank_abs_div`).
-/

namespace ChartTemplate

open Float.Model (UnpackedFloat)
open Float.Model.UnpackedFloat

variable {x y : Float} {m : ℕ} {e : ℤ}

theorem rank_le_zero_iff : rank y ≤ rank 0 ↔ y.isNaN = true ∨ y ≤ 0 := by
  cases hy : y.isNaN with
  | false => rw [← le_iff_rank hy (by decide)]; simp
  | true =>
    have hnan : y.toModel.unpack.isNaN = true := hy
    refine iff_of_true ?_ (.inl rfl)
    rw [rank]
    cases hu : y.toModel.unpack with
    | notANumber => decide
    | _ => rw [hu] at hnan; cases hnan

/-! ## Products of naturals -/

theorem rankOf_unpackedOf_positive (m : ℕ) (e : ℤ) : rank 0 ≤ rankOf (unpackedOf .positive m e) := by
  have hzero : rank 0 = toLex (0, toLex (0, 0)) := rfl
  rw [hzero]
  unfold unpackedOf
  split
  · exact le_rfl
  · exact Prod.Lex.toLex_le_toLex.2 (.inl one_pos)

theorem Rounds.rank_nonneg {v : ℚ} (h : Rounds x v) : rank 0 ≤ rank x := by
  obtain ⟨m, e, -, hunpack⟩ := h
  rw [rank.eq_1 x, hunpack]
  split
  · exact rankOf_unpackedOf_positive m e
  · decide

theorem rank_ofNat_mul (n : ℕ) (h : HasParts y m e) (hm : 0 < m) : rank 0 ≤ rank (Float.ofNat n * y) := by
  obtain ⟨m', e', hnearest, hunpack⟩ := rounds_ofNat n
  split at hunpack
  · next he => exact (HasParts.rounds_mul ⟨hnearest.canonical, he, hunpack⟩ h).rank_nonneg
  · have hmodel : Float.ofNat n * y =
        .ofModel (Float.Model.pack (mul .binary64 (Float.ofNat n).toModel.unpack y.toModel.unpack)) := rfl
    have hinfinite : rank 0 ≤ rank (.ofModel (Float.Model.pack (.infinity .positive))) := by decide
    rw [hmodel, hunpack, h.unpack, unpackedOf_pos _ hm]
    exact hinfinite

/-! ## Quotients of magnitudes -/

/-- A number without a sign, or NaN. -/
inductive Unsigned : UnpackedFloat → Prop
  | notANumber : Unsigned .notANumber
  | infinity : Unsigned (.infinity .positive)
  | zero : Unsigned (.zero .positive)
  | finite {m : ℕ} {e : ℤ} (hc : Canonical m e) (hm : 0 < m) : Unsigned (.finite .positive m e hm)

/-- A number at most zero, or NaN. -/
inductive NotPositive : UnpackedFloat → Prop
  | notANumber : NotPositive .notANumber
  | infinity : NotPositive (.infinity .negative)
  | zero (s : Sign) : NotPositive (.zero s)
  | finite (m : ℕ) (e : ℤ) (hm : 0 < m) : NotPositive (.finite .negative m e hm)

theorem unsigned_abs (x : Float) : Unsigned x.abs.toModel.unpack := by
  cases hfinite : x.isFinite with
  | true =>
    rw [unpack_abs hfinite]
    obtain hzero | hm := Nat.eq_zero_or_pos (FloatParts.ofFloat x).mant
    · rw [hzero]
      exact .zero
    · rw [unpackedOf_pos _ hm]
      exact .finite (canonical_ofFloat x) hm
  | false =>
    have hmodel : x.abs.toModel.unpack = (Float.Model.pack x.toModel.unpack.abs).unpack := rfl
    have hfinite : x.toModel.unpack.isFinite = false := hfinite
    rw [hmodel]
    cases hu : x.toModel.unpack with
    | notANumber => exact .notANumber
    | infinity s => cases s <;> exact .infinity
    | _ => rw [hu] at hfinite; cases hfinite

theorem notPositive_of_rank (h : rank y ≤ rank 0) : NotPositive y.toModel.unpack := by
  rw [rank.eq_1 y] at h
  cases hv : y.toModel.unpack with
  | notANumber => exact .notANumber
  | zero s => exact .zero s
  | infinity s =>
    cases s with
    | negative => exact .infinity
    | positive => exact absurd (hv ▸ h) (by decide)
  | finite s m e hm =>
    cases s with
    | negative => exact .finite m e hm
    | positive =>
      rw [hv] at h
      rcases Prod.Lex.toLex_le_toLex.1 h with h | ⟨h, -⟩ <;> omega

theorem rank_pack_negative (hc : Canonical m e) :
    rank (.ofModel (Float.Model.pack (unpackedOf .negative m e))) ≤ rank 0 := by
  have hzero : rank 0 = toLex (0, toLex (0, 0)) := rfl
  show rankOf (Float.Model.pack (unpackedOf .negative m e)).unpack ≤ rank 0
  rw [unpack_pack _ hc, hzero]
  split
  · unfold unpackedOf
    split
    · exact le_rfl
    · exact Prod.Lex.toLex_le_toLex.2 (.inl neg_one_lt_zero)
  · decide

/-- **Quotients** of a magnitude and of what does not stand above zero. -/
theorem rank_abs_div (x : Float) (hy : rank y ≤ rank 0) :
    rank (x.abs / y) ≤ rank 0 ∨ x.abs / y = infinity ∧ (y == 0) = true := by
  have hnan : rank (.ofModel (Float.Model.pack .notANumber)) ≤ rank 0 := by decide
  have hinfinity : rank (.ofModel (Float.Model.pack (.infinity .negative))) ≤ rank 0 := by decide
  have hzero : rank (.ofModel (Float.Model.pack (.zero .negative))) ≤ rank 0 := by decide
  have hmodel : x.abs / y =
      .ofModel (Float.Model.pack (div .binary64 x.abs.toModel.unpack y.toModel.unpack)) := rfl
  have hbeq : (y == 0) = (y.toModel.unpack.compare (.zero .positive) == some .eq) := rfl
  have hu := unsigned_abs x
  have hv := notPositive_of_rank hy
  rw [hmodel, hbeq]
  generalize x.abs.toModel.unpack = u at hu ⊢
  generalize y.toModel.unpack = v at hv ⊢
  cases hu with
  | notANumber => exact .inl hnan
  | infinity =>
    cases hv with
    | notANumber | infinity => exact .inl hnan
    | finite => exact .inl hinfinity
    | zero s =>
      cases s with
      | positive => exact .inr ⟨rfl, rfl⟩
      | negative => exact .inl hinfinity
  | zero =>
    cases hv with
    | notANumber | zero => exact .inl hnan
    | infinity | finite => exact .inl hzero
  | finite hc hm =>
    cases hv with
    | notANumber => exact .inl hnan
    | infinity => exact .inl hzero
    | zero s =>
      cases s with
      | positive => exact .inr ⟨rfl, rfl⟩
      | negative => exact .inl hinfinity
    | finite m' e' hm' =>
      obtain ⟨n, k, hnearest, hdiv⟩ := div_unpackedOf hc hm hm' .positive .negative
      rw [← unpackedOf_pos .positive hm, ← unpackedOf_pos .negative hm', hdiv]
      exact .inl (rank_pack_negative hnearest.canonical)

end ChartTemplate
