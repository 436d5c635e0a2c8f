import Mathlib
import ChartTemplate.Numeric.Rounding

/-!
# The order of numbers

All numbers but NaN are linearly ordered: `rank` sends a number to where it stands, by sign, exponent
and significand, and comparing numbers is comparing ranks. From this come the rules of `≤` and `<` for
numbers that are not NaN, and that the integer part of a number above one is at least one.
-/

namespace ChartTemplate

open Float.Model (UnpackedFloat)

/-! ## Ranks -/

/-- Where a number stands among all that are not NaN. -/
def rankOf : UnpackedFloat → ℤ ×ₗ ℤ ×ₗ ℤ
  | .infinity .negative => toLex (-2, toLex (0, 0))
  | .finite .negative m e _ => toLex (-1, toLex (-e, -m))
  | .zero _ | .notANumber => toLex (0, toLex (0, 0))
  | .finite .positive m e _ => toLex (1, toLex (e, m))
  | .infinity .positive => toLex (2, toLex (0, 0))

/-- Where a number stands among all that are not NaN. -/
def rank (x : Float) : ℤ ×ₗ ℤ ×ₗ ℤ :=
  rankOf x.toModel.unpack

theorem compare_cast (m n : ℕ) : compare (m : ℤ) (n : ℤ) = compare m n := by
  rcases lt_trichotomy m n with h | h | h
  · rw [compare_lt_iff_lt.mpr h, compare_lt_iff_lt.mpr (Int.ofNat_lt.mpr h)]
  · rw [compare_eq_iff_eq.mpr h, compare_eq_iff_eq.mpr (congrArg _ h)]
  · rw [compare_gt_iff_gt.mpr h, compare_gt_iff_gt.mpr (Int.ofNat_lt.mpr h)]

theorem compare_neg (a b : ℤ) : compare (-a) (-b) = (compare a b).swap := by
  rcases lt_trichotomy a b with h | h | h
  · rw [compare_lt_iff_lt.mpr h, compare_gt_iff_gt.mpr (Int.neg_lt_neg h)]
    rfl
  · rw [compare_eq_iff_eq.mpr h, compare_eq_iff_eq.mpr (congrArg _ h)]
    rfl
  · rw [compare_gt_iff_gt.mpr h, compare_lt_iff_lt.mpr (Int.neg_lt_neg h)]
    rfl

theorem compare_rankOf {u v : UnpackedFloat} (hu : u.isNaN = false) (hv : v.isNaN = false) :
    u.compare v = some (compare (rankOf u) (rankOf v)) := by
  cases u with
  | notANumber => cases hu
  | infinity s =>
    cases v with
    | notANumber => cases hv
    | infinity s' => cases s <;> cases s' <;> rfl
    | zero s' => cases s <;> rfl
    | finite s' => cases s <;> cases s' <;> rfl
  | zero s =>
    cases v with
    | notANumber => cases hv
    | infinity s' => cases s' <;> rfl
    | zero s' => rfl
    | finite s' => cases s' <;> rfl
  | finite s m e =>
    cases v with
    | notANumber => cases hv
    | infinity s' => cases s <;> cases s' <;> rfl
    | zero s' => cases s <;> rfl
    | finite s' m' e' =>
      -- below zero a greater exponent or significand stands lower
      cases s <;> cases s'
      · show some ((compare e e').then (compare m m')).swap =
          some ((compare (-e) (-e')).then (compare (-(m : ℤ)) (-(m' : ℤ))))
        rw [Ordering.swap_then, compare_neg, compare_neg, compare_cast]
      · rfl
      · rfl
      · show some ((compare e e').then (compare m m')) =
          some ((compare e e').then (compare (m : ℤ) (m' : ℤ)))
        rw [compare_cast]

theorem isNaN_of_compare {u v : UnpackedFloat} {o : Ordering} (h : u.compare v = some o) :
    u.isNaN = false ∧ v.isNaN = false := by
  cases u with
  | notANumber => cases h
  | _ =>
    cases v with
    | notANumber => simp [UnpackedFloat.compare] at h
    | _ => exact ⟨rfl, rfl⟩

/-! ## The rules of the order -/

variable {x y z : Float}

theorem le_iff_rank (hx : x.isNaN = false) (hy : y.isNaN = false) : x ≤ y ↔ rank x ≤ rank y := by
  have hcompare := compare_rankOf (u := x.toModel.unpack) (v := y.toModel.unpack) hx hy
  show decide (((x.toModel.unpack.compare y.toModel.unpack).any (·.isLE)) = true) = true ↔ _
  rw [hcompare, decide_eq_true_iff]
  show (compare (rank x) (rank y)).isLE = true ↔ _
  rw [Ordering.isLE_iff_ne_gt]
  show ¬ compare (rank x) (rank y) = .gt ↔ _
  rw [compare_gt_iff_gt]
  exact not_lt

theorem lt_iff_rank (hx : x.isNaN = false) (hy : y.isNaN = false) : x < y ↔ rank x < rank y := by
  have hcompare := compare_rankOf (u := x.toModel.unpack) (v := y.toModel.unpack) hx hy
  show decide ((x.toModel.unpack.compare y.toModel.unpack == some .lt) = true) = true ↔ _
  rw [hcompare, decide_eq_true_iff]
  show (some (compare (rank x) (rank y)) == some .lt) = true ↔ _
  rw [beq_iff_eq, Option.some_inj, compare_lt_iff_lt]

theorem beq_iff_rank : (x == y) = true ↔ x.isNaN = false ∧ y.isNaN = false ∧ rank x = rank y := by
  show (x.toModel.unpack.compare y.toModel.unpack == some .eq) = true ↔
    x.toModel.unpack.isNaN = false ∧ y.toModel.unpack.isNaN = false ∧ _
  rw [beq_iff_eq]
  constructor
  · intro h
    obtain ⟨hx, hy⟩ := isNaN_of_compare h
    rw [compare_rankOf hx hy, Option.some_inj, compare_eq_iff_eq] at h
    exact ⟨hx, hy, h⟩
  · rintro ⟨hx, hy, h⟩
    rw [compare_rankOf hx hy, Option.some_inj, compare_eq_iff_eq]
    exact h

theorem Float.beq_trans (hxy : (x == y) = true) (hyz : (y == z) = true) : (x == z) = true := by
  obtain ⟨hx, -, hxy⟩ := beq_iff_rank.mp hxy
  obtain ⟨-, hz, hyz⟩ := beq_iff_rank.mp hyz
  exact beq_iff_rank.mpr ⟨hx, hz, hxy.trans hyz⟩

theorem Float.le_rfl (hx : x.isNaN = false) : x ≤ x :=
  (le_iff_rank hx hx).mpr (le_refl _)

theorem Float.isNaN_of_le (h : x ≤ y) : x.isNaN = false ∧ y.isNaN = false := by
  have hle : (x.toModel.unpack.compare y.toModel.unpack).any (·.isLE) = true := of_decide_eq_true h
  cases hcompare : x.toModel.unpack.compare y.toModel.unpack with
  | none => simp [hcompare] at hle
  | some o => exact isNaN_of_compare hcompare

theorem Float.isNaN_of_lt (h : x < y) : x.isNaN = false ∧ y.isNaN = false := by
  have hlt : (x.toModel.unpack.compare y.toModel.unpack == some .lt) = true := of_decide_eq_true h
  exact isNaN_of_compare (beq_iff_eq.1 hlt)

theorem Float.le_trans (hxy : x ≤ y) (hyz : y ≤ z) : x ≤ z := by
  obtain ⟨hx, hy⟩ := Float.isNaN_of_le hxy
  obtain ⟨-, hz⟩ := Float.isNaN_of_le hyz
  rw [le_iff_rank hx hz]
  exact ((le_iff_rank hx hy).mp hxy).trans ((le_iff_rank hy hz).mp hyz)

theorem Float.not_le (hx : x.isNaN = false) (hy : y.isNaN = false) : ¬ x ≤ y ↔ y < x := by
  rw [le_iff_rank hx hy, lt_iff_rank hy hx, ← not_lt, not_not]

theorem Float.le_of_lt (hx : x.isNaN = false) (hy : y.isNaN = false) (h : x < y) : x ≤ y :=
  (le_iff_rank hx hy).mpr ((lt_iff_rank hx hy).mp h).le

theorem Float.le_of_not_lt (hx : x.isNaN = false) (hy : y.isNaN = false) (h : ¬ x < y) : y ≤ x :=
  (le_iff_rank hy hx).mpr (not_lt.mp fun hlt => h ((lt_iff_rank hx hy).mpr hlt))

/-! ## Least and greatest -/

theorem minNumber_of_isNaN (hx : x.isNaN = false) (hy : y.isNaN = true) : minNumber x y = x := by
  rw [minNumber, hx, hy]
  rfl

theorem maxNumber_of_isNaN (hx : x.isNaN = false) (hy : y.isNaN = true) : maxNumber x y = x := by
  rw [maxNumber, hx, hy]
  rfl

theorem minNumber_le (hx : x.isNaN = false) (hy : y.isNaN = false) :
    (minNumber x y).isNaN = false ∧ minNumber x y ≤ x ∧ minNumber x y ≤ y := by
  rw [minNumber, hx, hy]
  by_cases h : x < y
  · simp only [h, if_true, Bool.false_eq_true, if_false]
    exact ⟨hx, Float.le_rfl hx, Float.le_of_lt hx hy h⟩
  · simp only [h, Bool.false_eq_true, if_false]
    exact ⟨hy, Float.le_of_not_lt hx hy h, Float.le_rfl hy⟩

theorem le_maxNumber (hx : x.isNaN = false) (hy : y.isNaN = false) :
    (maxNumber x y).isNaN = false ∧ x ≤ maxNumber x y ∧ y ≤ maxNumber x y := by
  rw [maxNumber, hx, hy]
  by_cases h : y < x
  · simp only [h, if_true, Bool.false_eq_true, if_false]
    exact ⟨hx, Float.le_rfl hx, Float.le_of_lt hy hx h⟩
  · simp only [h, Bool.false_eq_true, if_false]
    exact ⟨hy, Float.le_of_not_lt hy hx h, Float.le_rfl hy⟩

theorem one_le_maxNumber_one (x : Float) : (maxNumber x 1).isNaN = false ∧ 1 ≤ maxNumber x 1 := by
  have hone : Float.isNaN 1 = false := by decide
  by_cases hx : x.isNaN = true
  · rw [maxNumber, if_pos hx]
    exact ⟨hone, Float.le_rfl hone⟩
  · obtain ⟨hnumber, -, hle⟩ := le_maxNumber (Bool.eq_false_iff.mpr hx) hone
    exact ⟨hnumber, hle⟩

/-! ## Integer parts -/

section

open Float.Model.UnpackedFloat

theorem toNat_unpackExponent (x : Float) :
    (@unpackExponent .binary64 x.toBits.toBitVec).toNat =
      ((x.toBits >>> 52) &&& 0x7FF).toNat := by
  rw [UInt64.toNat_and, UInt64.toNat_shiftRight]
  show x.toBits.toBitVec.toNat >>> 52 % 2 ^ 11 = x.toBits.toNat >>> 52 &&& 2 ^ 11 - 1
  rw [Nat.and_two_pow_sub_one_eq_mod]
  rfl

theorem signBit_eq (x : Float) :
    signBit x = (@unpackSign .binary64 x.toBits.toBitVec == 1#1) := by
  have hbit : x.toBits.toNat >>> 63 < 2 := by
    rw [Nat.shiftRight_eq_div_pow]
    have := x.toBits.toNat_lt
    omega
  rw [signBit, Bool.eq_iff_iff, beq_iff_eq, beq_iff_eq, ← UInt64.toNat_inj, ← BitVec.toNat_inj,
    UInt64.toNat_shiftRight]
  show x.toBits.toNat >>> 63 = 1 ↔ x.toBits.toNat >>> 63 % 2 = 1
  rw [Nat.mod_eq_of_lt hbit]

theorem FloatParts.one_le_whole (h : 1023 ≤ ((x.toBits >>> 52) &&& 0x7FF).toNat) :
    1 ≤ (ofFloat x).whole := by
  unfold ofFloat whole
  dsimp only
  generalize ((x.toBits >>> 52) &&& 0x7FF).toNat = e at h ⊢
  generalize (x.toBits &&& 0xFFFFFFFFFFFFF).toNat = f
  have he : e ≠ 0 := by omega
  have hexp : (-((e : ℤ) - 1075)).toNat ≤ 52 := by omega
  have hpos : 0 < powTwo (-((e : ℤ) - 1075)).toNat := Nat.two_pow_pos _
  rw [if_neg he, if_neg he, Nat.le_div_iff_mul_le hpos, Nat.one_mul]
  calc powTwo (-((e : ℤ) - 1075)).toNat
    _ ≤ powTwo 52 := Nat.pow_le_pow_right (by decide) hexp
    _ ≤ powTwo 52 + f := Nat.le_add_right _ _
    _ ≤ (powTwo 52 + f) * powTwo ((e : ℤ) - 1075).toNat := Nat.le_mul_of_pos_right _ (Nat.two_pow_pos _)

theorem unpack_finite {s : Sign} {m : ℕ} {e : ℤ} {hm : 0 < m}
    (h : x.toModel.unpack = .finite s m e hm) :
    s = .ofBitVec (@unpackSign .binary64 x.toBits.toBitVec) ∧
      (e = -1074 ∨ e = (((x.toBits >>> 52) &&& 0x7FF).toNat : ℤ) - 1075) := by
  have hunpack : x.toModel.unpack = unpack .binary64 x.toBits.toBitVec := rfl
  rw [hunpack, unpack] at h
  rw [← toNat_unpackExponent]
  dsimp only at h
  split at h
  · split at h <;> cases h
  · split at h
    · rename_i hzero
      split at h
      · cases h
      · cases h
        rw [hzero]
        exact ⟨rfl, .inl rfl⟩
    · cases h
      exact ⟨rfl, .inr rfl⟩

theorem unpack_infinity {s : Sign} (h : x.toModel.unpack = .infinity s) :
    s = .ofBitVec (@unpackSign .binary64 x.toBits.toBitVec) := by
  have hunpack : x.toModel.unpack = unpack .binary64 x.toBits.toBitVec := rfl
  rw [hunpack, unpack] at h
  dsimp only at h
  split at h
  · split at h <;> cases h
    rfl
  · split at h
    · split at h <;> cases h
    · cases h

theorem signBit_of_positive
    (h : Sign.positive = .ofBitVec (@unpackSign .binary64 x.toBits.toBitVec)) :
    signBit x = false := by
  rw [signBit_eq]
  unfold Sign.ofBitVec at h
  split at h
  · rename_i hzero
    rw [hzero]
    rfl
  · cases h

theorem above_one {u : UnpackedFloat}
    (h : toLex (1, toLex ((-52 : ℤ), (4503599627370496 : ℤ))) ≤ rankOf u) :
    u = .infinity .positive ∨ ∃ m e hm, u = .finite .positive m e hm ∧ -52 ≤ e := by
  cases u with
  | notANumber => exact absurd h (by decide)
  | zero s =>
    have hfirst : (1 : ℤ) ≤ 0 := Prod.Lex.monotone_fst _ _ h
    omega
  | infinity s =>
    cases s with
    | negative => exact absurd h (by decide)
    | positive => exact .inl rfl
  | finite s m e hm =>
    cases s with
    | negative =>
      have hfirst : (1 : ℤ) ≤ -1 := Prod.Lex.monotone_fst _ _ h
      omega
    | positive =>
      have hrest : toLex ((-52 : ℤ), (4503599627370496 : ℤ)) ≤ toLex (e, (m : ℤ)) :=
        (Prod.Lex.toLex_le_toLex.mp h).resolve_left (lt_irrefl _) |>.2
      exact .inr ⟨m, e, hm, rfl, Prod.Lex.monotone_fst _ _ hrest⟩

theorem one_le_clampInt (hx : x.isNaN = false) (h : 1 ≤ x) {lo hi : ℤ} (hhi : 1 ≤ hi) :
    1 ≤ clampInt lo hi x := by
  have hinf : x.isInf = x.toModel.unpack.isInf := rfl
  have hfinite : x.isFinite = x.toModel.unpack.isFinite := rfl
  rw [clampInt, hx, hinf]
  -- one stands at exponent -52, so that a finite number above it is not subnormal
  obtain hu | ⟨m, e, hm, hu, he⟩ := above_one ((le_iff_rank (by decide) hx).mp h)
  · rw [signBit_of_positive (unpack_infinity hu), hu]
    exact hhi
  · obtain ⟨hsign, hexp⟩ := unpack_finite hu
    have hwhole : 1 ≤ (FloatParts.ofFloat x).whole := FloatParts.one_le_whole (by omega)
    have htrunc : truncInt x = (FloatParts.ofFloat x).whole := by
      rw [truncInt, hfinite, hu, FloatParts.ofFloat, signBit_of_positive hsign]
      rfl
    rw [hu]
    show 1 ≤ max lo (min hi (truncInt x))
    omega

end

end ChartTemplate
