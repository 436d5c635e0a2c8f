import ChartTemplate.Proofs.Numeric.Order

/-!
# Numbers and their bits

A number is determined by its sign, significand and exponent (`eq_of_unpack`), which are the parts that
`FloatParts` reads off its bits (`unpack_eq_parts`). `Canonical` says which significands and exponents
occur; a number made of such parts has these parts, or is infinite if its exponent is too great
(`unpack_pack_finite`).
-/

namespace ChartTemplate

open Float.Model (UnpackedFloat)
open Float.Model.UnpackedFloat

/-- The significand and the exponent of a binary64 number: the significand is full, or the exponent is
the least. -/
structure Canonical (m : ℕ) (e : ℤ) : Prop where
  lt : m < 2 ^ 53
  le : -1074 ≤ e
  full : 2 ^ 52 ≤ m ∨ e = -1074

def signOf (negative : Bool) : Sign :=
  if negative then .negative else .positive

/-- The number with the given parts, which is zero if its significand is. -/
def unpackedOf (s : Sign) (m : ℕ) (e : ℤ) : UnpackedFloat :=
  if h : m = 0 then .zero s else .finite s m e (Nat.pos_of_ne_zero h)

theorem unpackedOf_zero (s : Sign) (e : ℤ) : unpackedOf s 0 e = .zero s := rfl

theorem unpackedOf_pos (s : Sign) {m : ℕ} (hm : 0 < m) (e : ℤ) :
    unpackedOf s m e = .finite s m e hm :=
  dif_neg hm.ne'

theorem unpackedOf_inj {s s' : Sign} {m m' : ℕ} {e e' : ℤ} (h : unpackedOf s m e = unpackedOf s' m' e') :
    s = s' ∧ m = m' ∧ (m ≠ 0 → e = e') := by
  unfold unpackedOf at h
  split at h <;> split at h
  · rename_i hm hm'
    exact ⟨UnpackedFloat.zero.inj h, hm.trans hm'.symm, absurd hm⟩
  · cases h
  · cases h
  · obtain ⟨hs, hm, he⟩ := UnpackedFloat.finite.inj h
    exact ⟨hs, hm, fun _ => he⟩

theorem signOf_injective : Function.Injective signOf := by
  intro b b' h
  cases b <;> cases b' <;> first | rfl | cases h

def FloatParts.unpacked (p : FloatParts) : UnpackedFloat :=
  unpackedOf (signOf p.negative) p.mant p.exp

/-! ## Reading bits -/

section

variable {x y : Float}

theorem toNat_unpackMantissa (x : Float) :
    (@unpackMantissa .binary64 x.toBits.toBitVec).toNat = (x.toBits &&& 0xFFFFFFFFFFFFF).toNat := by
  rw [UInt64.toNat_and]
  show x.toBits.toNat >>> 0 % 2 ^ 52 = x.toBits.toNat &&& 2 ^ 52 - 1
  rw [Nat.and_two_pow_sub_one_eq_mod]
  rfl

theorem toNat_one_append (m : BitVec 52) : (1#1 ++ m).toNat = 2 ^ 52 + m.toNat := by
  rw [BitVec.toNat_append, ← Nat.shiftLeft_add_eq_or_of_lt m.isLt]
  rfl

theorem ofBitVec_unpackSign (x : Float) :
    Sign.ofBitVec (@unpackSign .binary64 x.toBits.toBitVec) = signOf (signBit x) := by
  rw [signBit_eq]
  generalize @unpackSign .binary64 x.toBits.toBitVec = b
  rcases BitVec.eq_zero_or_eq_one b with rfl | rfl <;> rfl

/-- A number with its greatest exponent is infinite or NaN, and any other has the parts that are read
off its bits. -/
theorem unpack_eq_parts (x : Float) :
    x.toModel.unpack =
      if ((x.toBits >>> 52) &&& 0x7FF).toNat = 2047 then
        if (x.toBits &&& 0xFFFFFFFFFFFFF).toNat = 0 then .infinity (signOf (signBit x)) else .notANumber
      else (FloatParts.ofFloat x).unpacked := by
  have hunpack : x.toModel.unpack = unpack .binary64 x.toBits.toBitVec := rfl
  have htop : @unpackExponent .binary64 x.toBits.toBitVec = -1#11 ↔
      ((x.toBits >>> 52) &&& 0x7FF).toNat = 2047 := by
    rw [← toNat_unpackExponent, ← BitVec.toNat_inj]
    rfl
  have hbottom : @unpackExponent .binary64 x.toBits.toBitVec = 0#11 ↔
      ((x.toBits >>> 52) &&& 0x7FF).toNat = 0 := by
    rw [← toNat_unpackExponent, ← BitVec.toNat_inj]
    rfl
  have hempty : @unpackMantissa .binary64 x.toBits.toBitVec = 0#52 ↔
      (x.toBits &&& 0xFFFFFFFFFFFFF).toNat = 0 := by
    rw [← toNat_unpackMantissa, ← BitVec.toNat_inj]
    rfl
  rw [hunpack, unpack]
  simp only [htop, hempty, hbottom, toNat_unpackExponent, toNat_unpackMantissa, ofBitVec_unpackSign,
    toNat_one_append]
  split
  · rfl
  · split
    · rename_i hbottom
      have hmant : (FloatParts.ofFloat x).mant = (x.toBits &&& 0xFFFFFFFFFFFFF).toNat := if_pos hbottom
      have hexp : (FloatParts.ofFloat x).exp = -1074 := if_pos hbottom
      split
      · rename_i hzero
        rw [FloatParts.unpacked, hmant, hzero]
        rfl
      · rename_i hnonzero
        rw [FloatParts.unpacked, hmant, hexp, unpackedOf_pos _ (Nat.pos_of_ne_zero hnonzero), hbottom]
        rfl
    · rename_i hnormal
      have hmant : (FloatParts.ofFloat x).mant = 2 ^ 52 + (x.toBits &&& 0xFFFFFFFFFFFFF).toNat :=
        if_neg hnormal
      have hexp : (FloatParts.ofFloat x).exp = (((x.toBits >>> 52) &&& 0x7FF).toNat : ℤ) - 1075 :=
        if_neg hnormal
      rw [FloatParts.unpacked, hmant, hexp, unpackedOf_pos _ (by omega)]
      rfl

theorem exponentField_lt (x : Float) : ((x.toBits >>> 52) &&& 0x7FF).toNat < 2048 := by
  rw [← toNat_unpackExponent]
  exact BitVec.isLt _

theorem significandField_lt (x : Float) : (x.toBits &&& 0xFFFFFFFFFFFFF).toNat < 2 ^ 52 := by
  rw [← toNat_unpackMantissa]
  exact BitVec.isLt _

theorem toNat_toBits (x : Float) :
    x.toBits.toNat = (signBit x).toNat * 2 ^ 63 +
      ((x.toBits >>> 52) &&& 0x7FF).toNat * 2 ^ 52 + (x.toBits &&& 0xFFFFFFFFFFFFF).toNat := by
  have hsign : (signBit x).toNat = x.toBits.toNat / 2 ^ 63 := by
    have hlt : x.toBits.toNat / 2 ^ 63 = 0 ∨ x.toBits.toNat / 2 ^ 63 = 1 := by
      have := x.toBits.toNat_lt
      omega
    have hiff : signBit x = true ↔ x.toBits.toNat / 2 ^ 63 = 1 := by
      rw [signBit, beq_iff_eq, ← UInt64.toNat_inj, UInt64.toNat_shiftRight,
        ← Nat.shiftRight_eq_div_pow]
      rfl
    cases hbit : signBit x with
    | true => exact (hiff.mp hbit).symm
    | false => exact (hlt.resolve_right fun h => by simp [hiff.mpr h] at hbit).symm
  have hexp : ((x.toBits >>> 52) &&& 0x7FF).toNat = x.toBits.toNat / 2 ^ 52 % 2 ^ 11 := by
    rw [← toNat_unpackExponent, ← Nat.shiftRight_eq_div_pow]
    rfl
  have hsig : (x.toBits &&& 0xFFFFFFFFFFFFF).toNat = x.toBits.toNat % 2 ^ 52 := by
    rw [← toNat_unpackMantissa]
    rfl
  have := x.toBits.toNat_lt
  rw [hsign, hexp, hsig]
  omega

theorem canonical_ofFloat (x : Float) :
    Canonical (FloatParts.ofFloat x).mant (FloatParts.ofFloat x).exp := by
  have hexp := exponentField_lt x
  have hsig := significandField_lt x
  have hpow : powTwo 52 = 2 ^ 52 := rfl
  unfold FloatParts.ofFloat
  dsimp only
  split
  · exact ⟨by omega, le_rfl, .inr rfl⟩
  · exact ⟨by omega, by omega, .inl (Nat.le_add_right _ _)⟩

theorem isFinite_iff_field (x : Float) :
    x.isFinite = true ↔ ((x.toBits >>> 52) &&& 0x7FF).toNat ≠ 2047 := by
  have hfinite : x.isFinite = x.toModel.unpack.isFinite := rfl
  rw [hfinite, unpack_eq_parts]
  split
  · rename_i htop
    refine iff_of_false ?_ (not_not.mpr htop)
    split <;> exact Bool.false_ne_true
  · rename_i htop
    refine iff_of_true ?_ htop
    unfold FloatParts.unpacked unpackedOf
    split <;> rfl

theorem unpack_of_isFinite (hx : x.isFinite = true) :
    x.toModel.unpack = (FloatParts.ofFloat x).unpacked := by
  rw [unpack_eq_parts, if_neg ((isFinite_iff_field x).mp hx)]

theorem exp_le_of_isFinite (hx : x.isFinite = true) : (FloatParts.ofFloat x).exp ≤ 971 := by
  have hexp := exponentField_lt x
  have htop := (isFinite_iff_field x).mp hx
  unfold FloatParts.ofFloat
  dsimp only
  split <;> omega

theorem eq_of_toBits (h : x.toBits.toNat = y.toBits.toNat) : x = y := by
  obtain ⟨⟨bits, _⟩⟩ := x
  obtain ⟨⟨bits', _⟩⟩ := y
  have hbits : bits = bits' := UInt64.toNat_inj.mp h
  subst hbits
  rfl

/-- The fields of the bits are determined by the significand and the exponent, which does not matter for
zero. -/
theorem fields_eq_of_parts (hm : (FloatParts.ofFloat x).mant = (FloatParts.ofFloat y).mant)
    (he : (FloatParts.ofFloat x).mant ≠ 0 → (FloatParts.ofFloat x).exp = (FloatParts.ofFloat y).exp) :
    ((x.toBits >>> 52) &&& 0x7FF).toNat = ((y.toBits >>> 52) &&& 0x7FF).toNat ∧
      (x.toBits &&& 0xFFFFFFFFFFFFF).toNat = (y.toBits &&& 0xFFFFFFFFFFFFF).toNat := by
  have hsigx := significandField_lt x
  have hsigy := significandField_lt y
  have hpow : powTwo 52 = 2 ^ 52 := rfl
  unfold FloatParts.ofFloat at hm he
  dsimp only at hm he
  generalize ((x.toBits >>> 52) &&& 0x7FF).toNat = ex at hm he ⊢
  generalize ((y.toBits >>> 52) &&& 0x7FF).toNat = ey at hm he ⊢
  generalize (x.toBits &&& 0xFFFFFFFFFFFFF).toNat = fx at hsigx hm he ⊢
  generalize (y.toBits &&& 0xFFFFFFFFFFFFF).toNat = fy at hsigy hm ⊢
  -- a subnormal number and one of the least normal exponent differ in their significands
  by_cases hx : ex = 0 <;> by_cases hy : ey = 0
  · rw [if_pos hx, if_pos hy] at hm
    exact ⟨hx.trans hy.symm, hm⟩
  · rw [if_pos hx, if_neg hy] at hm
    omega
  · rw [if_neg hx, if_pos hy] at hm
    omega
  · rw [if_neg hx, if_neg hy] at hm
    rw [if_neg hx, if_neg hx, if_neg hy] at he
    have hexp := he (by omega)
    omega

theorem eq_of_unpack (hx : x.isFinite = true) (h : x.toModel.unpack = y.toModel.unpack) : x = y := by
  have hfinite : y.isFinite = true := (congrArg UnpackedFloat.isFinite h).symm.trans hx
  rw [unpack_of_isFinite hx, unpack_of_isFinite hfinite] at h
  obtain ⟨hs, hm, he⟩ := unpackedOf_inj h
  have hsign : signBit x = signBit y := signOf_injective hs
  obtain ⟨hexp, hsig⟩ := fields_eq_of_parts hm he
  exact eq_of_toBits (by rw [toNat_toBits x, toNat_toBits y, hsign, hexp, hsig])

/-! ## Making numbers -/

theorem unpackSign_packComponents (s : Sign) (e : BitVec 11) (m : BitVec 52) :
    @unpackSign .binary64 (packComponents .binary64 s e m) = s.toBitVec := by
  have hbits : (s.toBitVec ++ e ++ m).toNat =
      (s.toBitVec.toNat * 2 ^ 11 + e.toNat) * 2 ^ 52 + m.toNat := by
    rw [BitVec.toNat_append, ← Nat.shiftLeft_add_eq_or_of_lt m.isLt, BitVec.toNat_append,
      ← Nat.shiftLeft_add_eq_or_of_lt e.isLt, Nat.shiftLeft_eq, Nat.shiftLeft_eq]
  have hs := s.toBitVec.isLt
  have he := e.isLt
  have hm := m.isLt
  rw [← BitVec.toNat_inj]
  show (s.toBitVec ++ e ++ m).toNat >>> 63 % 2 ^ 1 = s.toBitVec.toNat
  rw [hbits, Nat.shiftRight_eq_div_pow]
  omega

theorem ofBitVec_toBitVec (s : Sign) : Sign.ofBitVec s.toBitVec = s := by
  cases s <;> rfl

theorem unpack_packComponents (s : Sign) (e : BitVec 11) (m : BitVec 52) :
    unpack .binary64 (packComponents .binary64 s e m) =
      if e = -1#11 then if m = 0#52 then .infinity s else .notANumber
      else if e = 0#11 then
        if h : m = 0#52 then .zero s
        else .finite s m.toNat (-1074) (by simpa [BitVec.toNat_pos, BitVec.pos_iff_ne_zero] using h)
      else .finite s (2 ^ 52 + m.toNat) ((e.toNat : ℤ) - 1075) (by omega) := by
  rw [unpack]
  simp only [unpackMantissa_packComponents, unpackExponent_packComponents, unpackSign_packComponents,
    ofBitVec_toBitVec, toNat_one_append]
  split
  · rfl
  · split
    · rename_i hzero
      subst hzero
      rfl
    · rfl

section Finite

variable {m : ℕ} {e : ℤ}

theorem pack_finite (s : Sign) (hm : 0 < m) :
    pack .binary64 (.finite s m e hm) =
      if 2048 ≤ (e + 1075).toNat + 1 then packedInfinity .binary64 s
      else if m.log2 + 1 = 53 then
        packComponents .binary64 s (BitVec.ofNat 11 (e + 1075).toNat) (BitVec.ofNat 52 m)
      else packComponents .binary64 s 0#11 (BitVec.ofNat 52 m) := by
  have hbiased : (e + 1023 + 52).toNat = (e + 1075).toNat := by omega
  rw [← hbiased]
  rfl

theorem unpack_full (s : Sign) (hm : 0 < m) (hlt : m < 2 ^ 53) (hfull : 2 ^ 52 ≤ m) (hle : -1074 ≤ e)
    (he : e ≤ 971) :
    unpack .binary64
        (packComponents .binary64 s (BitVec.ofNat 11 (e + 1075).toNat) (BitVec.ofNat 52 m)) =
      .finite s m e hm := by
  have hfield : (BitVec.ofNat 11 (e + 1075).toNat).toNat = (e + 1075).toNat := by
    rw [BitVec.toNat_ofNat, Nat.mod_eq_of_lt (by omega)]
  have hsig : (BitVec.ofNat 52 m).toNat = m % 2 ^ 52 := BitVec.toNat_ofNat ..
  rw [unpack_packComponents, if_neg, if_neg]
  · congr 1
    · rw [hsig]
      omega
    · rw [hfield]
      omega
  · rw [← BitVec.toNat_inj, hfield]
    show (e + 1075).toNat ≠ 0
    omega
  · rw [← BitVec.toNat_inj, hfield]
    show (e + 1075).toNat ≠ 2047
    omega

theorem unpack_subnormal (s : Sign) (hm : 0 < m) (hlt : m < 2 ^ 52) :
    unpack .binary64 (packComponents .binary64 s 0#11 (BitVec.ofNat 52 m)) =
      .finite s m (-1074) hm := by
  have hsig : (BitVec.ofNat 52 m).toNat = m := by rw [BitVec.toNat_ofNat, Nat.mod_eq_of_lt hlt]
  rw [unpack_packComponents, if_neg (by decide), if_pos rfl, dif_neg]
  · congr 1
  · rw [← BitVec.toNat_inj, hsig]
    exact hm.ne'

theorem unpack_pack_finite (s : Sign) (hm : 0 < m) (h : Canonical m e) :
    (Float.Model.pack (.finite s m e hm)).unpack =
      if e ≤ 971 then .finite s m e hm else .infinity s := by
  show unpack .binary64 (pack .binary64 (.finite s m e hm)) = _
  obtain ⟨hlt, hle, hfull⟩ := h
  rw [pack_finite]
  split
  · rw [if_neg (by omega), packedInfinity, unpack_packComponents]
    rfl
  · have he : e ≤ 971 := by omega
    have hlog : m.log2 + 1 = 53 ↔ 2 ^ 52 ≤ m := by
      have := (Nat.log2_lt hm.ne').mpr hlt
      rw [← Nat.le_log2 hm.ne']
      omega
    rw [if_pos he]
    split
    · rename_i hnormal
      exact unpack_full s hm hlt (hlog.mp hnormal) hle he
    · rename_i hsubnormal
      have hlt : m < 2 ^ 52 := Nat.not_le.mp fun hle => hsubnormal (hlog.mpr hle)
      obtain rfl : e = -1074 := hfull.resolve_left (Nat.not_le.mpr hlt)
      exact unpack_subnormal s hm hlt

end Finite

theorem unpack_pack (s : Sign) {m : ℕ} {e : ℤ} (h : Canonical m e) :
    (Float.Model.pack (unpackedOf s m e)).unpack =
      if e ≤ 971 then unpackedOf s m e else .infinity s := by
  obtain rfl | hm := Nat.eq_zero_or_pos m
  · obtain rfl : e = -1074 := h.full.resolve_left (by decide)
    cases s <;> rfl
  · rw [unpackedOf_pos s hm]
    exact unpack_pack_finite s hm h

end

end ChartTemplate
