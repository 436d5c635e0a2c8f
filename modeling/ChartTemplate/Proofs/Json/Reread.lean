import ChartTemplate.Proofs.Json.Depth
import ChartTemplate.Proofs.Json.Range
import ChartTemplate.Proofs.Json.Reading
import ChartTemplate.Proofs.Numeric.Shortest

/-!
# Documents are read again

The text of a finite float is read as a number (`isSome_number?_canonicalChars`). Its digits need not
spell the float, but they spell at most halfway between the two greatest numbers
(`shortest_le_scaleLimit`), and a numeral below that limit can be scaled. Only the greatest number is
above it; its text is read, too. So the text of a document with numbers in range is read exactly if it is
not nested deeper than the reader allows (`isSome_reread?_iff`).
-/

namespace ChartTemplate

/-! ## What is written -/

section

variable {x : Float}

theorem cast_scaleLimit : (scaleLimit : ℚ) = (2 ^ 54 - 3) * 2 ^ (970 : ℤ) := by
  unfold scaleLimit
  rw [Nat.cast_mul, Nat.cast_pow]
  congr 1
  norm_num

theorem magnitude_le_of_ne_greatest {m : ℕ} {e : ℤ} (hc : Canonical m e) (he : e ≤ 971)
    (hne : ¬(m = 2 ^ 53 - 1 ∧ e = 971)) :
    magnitude m e ≤ (2 ^ 54 - 4) * 2 ^ (970 : ℤ) ∧ 1 / 2 * (2 : ℚ) ^ e ≤ 2 ^ (970 : ℤ) := by
  have hpos := two_zpow_pos 970
  have hlt := hc.lt
  have hmq : (m : ℚ) ≤ 2 ^ 53 := by exact_mod_cast hlt.le
  obtain rfl | hexp := he.eq_or_lt
  · have hm : (m : ℚ) ≤ 2 ^ 53 - 2 := by
      have hmnat : m + 2 ≤ 2 ^ 53 := by omega
      have : (m : ℚ) + 2 ≤ 2 ^ 53 := by exact_mod_cast hmnat
      linarith
    rw [magnitude, show (971 : ℤ) = 970 + 1 from rfl, zpow_add_one₀ two_ne_zero]
    generalize (2 : ℚ) ^ (970 : ℤ) = unit at hpos
    constructor
    · nlinarith
    · linarith
  · have hle : (2 : ℚ) ^ e ≤ 2 ^ (970 : ℤ) := zpow_le_zpow_right₀ one_le_two (by omega)
    have hprod : (m : ℚ) * 2 ^ e ≤ 2 ^ 53 * 2 ^ (970 : ℤ) :=
      mul_le_mul hmq hle (two_zpow_pos e).le (by positivity)
    rw [magnitude]
    generalize (2 : ℚ) ^ (970 : ℤ) = unit at hpos hle hprod
    constructor
    · linarith
    · linarith

/-- The shortest digits of a number have a value of at most halfway between the two greatest numbers,
unless the number is one of those. -/
theorem shortest_le_scaleLimit (tie : Tie) (hx : x.isFinite = true)
    (hne : ¬((FloatParts.ofFloat x).mant = 2 ^ 53 - 1 ∧ (FloatParts.ofFloat x).exp = 971)) :
    (Decimal.shortest tie x).value ≤ scaleLimit := by
  have hc := canonical_ofFloat x
  have he := exp_le_of_isFinite hx
  obtain ⟨hmagnitude, hhalf⟩ := magnitude_le_of_ne_greatest hc he hne
  rw [cast_scaleLimit]
  rcases shortest_le tie x with hle | hle
  · rw [add_mul] at hle
    unfold magnitude at hmagnitude
    linarith
  · -- half a step of the finest grid is less than a quarter of a unit of the greatest number
    have hlead := FloatParts.leadExponent_le hc he
    have hgrid : (10 : ℚ) ^ ((FloatParts.ofFloat x).leadExponent - 18) ≤ 2 ^ (970 : ℤ) := by
      have hnat : 10 ^ 291 ≤ 2 ^ 970 := by decide +kernel
      calc (10 : ℚ) ^ ((FloatParts.ofFloat x).leadExponent - 18)
        _ ≤ 10 ^ ((291 : ℕ) : ℤ) := zpow_le_zpow_right₀ (by norm_num) (by omega)
        _ ≤ 2 ^ ((970 : ℕ) : ℤ) := by
          rw [zpow_natCast, zpow_natCast]
          exact_mod_cast hnat
    have hpos := two_zpow_pos 970
    generalize (2 : ℚ) ^ (970 : ℤ) = unit at hpos hgrid hmagnitude
    linarith

end

namespace Json.Read

/-! ## Digits that are read -/

/-- Nothing follows, or no digit. -/
def EndsDigits (tail : List Char) : Prop :=
  ∀ c r, tail = c :: r → c.isDigit = false

theorem endsDigits_nil : EndsDigits [] := fun _ _ h => nomatch h

section

variable {ds tail : List Char} {n : Nat}

theorem exists_significand_digits (hds : Digits ds) (htail : EndsDigits tail) (n : Nat) :
    ∃ m k, significand n (ds ++ tail) = (m, k, ds.drop k ++ tail) ∧ k ≤ ds.length ∧
      m * 10 ^ (ds.length - k) ≤ n * 10 ^ ds.length + natOfChars ds := by
  induction ds generalizing n with
  | nil =>
    refine ⟨n, 0, ?_, le_rfl, Nat.le_add_right _ _⟩
    cases tail with
    | nil => rfl
    | cons c r => simp [significand, htail c r rfl]
  | cons c ds ih =>
    obtain ⟨hc, hds⟩ := List.forall_mem_cons.1 hds
    rw [List.cons_append, significand, if_pos hc]
    dsimp only
    split
    · -- the digit does not fit, and nothing after it is read
      exact ⟨n, 0, rfl, Nat.zero_le _, Nat.le_add_right _ _⟩
    · obtain ⟨m, k, hread, hk, hle⟩ := ih hds (n * 10 + digitValue c)
      refine ⟨m, k + 1, by rw [hread]; rfl, Nat.succ_le_succ hk, ?_⟩
      rw [List.length_cons, Nat.add_sub_add_right, natOfChars_cons, pow_succ]
      refine hle.trans_eq ?_
      ring

theorem significand_eq (hds : Digits ds) (htail : EndsDigits tail)
    (hmax : n * 10 ^ ds.length + natOfChars ds ≤ maxSignificand) :
    significand n (ds ++ tail) = (n * 10 ^ ds.length + natOfChars ds, ds.length, tail) := by
  induction ds generalizing n with
  | nil =>
    cases tail with
    | nil => simp [significand, natOfChars, ofDigits]
    | cons c r => simp [significand, htail c r rfl, natOfChars, ofDigits]
  | cons c ds ih =>
    obtain ⟨hc, hds⟩ := List.forall_mem_cons.1 hds
    have hvalue : n * 10 ^ (c :: ds).length + natOfChars (c :: ds) =
        (n * 10 + digitValue c) * 10 ^ ds.length + natOfChars ds := by
      rw [natOfChars_cons, List.length_cons, pow_succ]
      ring
    rw [hvalue] at hmax ⊢
    have hfits : n * 10 + digitValue c ≤ maxSignificand :=
      (Nat.le_mul_of_pos_right _ (by positivity)).trans ((Nat.le_add_right _ _).trans hmax)
    rw [List.cons_append, significand, if_pos hc]
    dsimp only
    rw [if_neg (not_lt.mpr hfits), ih hds hmax]
    rfl

/-- A whole part without a zero in front, unless it is zero alone. -/
structure Whole (ds : List Char) : Prop where
  digits : Digits ds
  ne_nil : ds ≠ []
  lead : ds = ['0'] ∨ ds.head? ≠ some '0'

theorem unsigned?_whole (hds : Whole ds) (hmax : natOfChars ds ≤ maxSignificand) (htail : EndsDigits tail) :
    unsigned? (ds ++ tail) = afterWhole? (natOfChars ds) 0 tail := by
  cases ds with
  | nil => exact absurd rfl hds.ne_nil
  | cons c ds =>
    have hpart : wholePart c (ds ++ tail) = (natOfChars (c :: ds), 0, tail) := by
      rcases hds.lead with hzero | hlead
      · obtain ⟨rfl, rfl⟩ := List.cons.inj hzero
        rfl
      · have hread := significand_eq (n := 0) hds.digits htail (by rwa [zero_mul, zero_add])
        have hnone : tail.takeWhile Char.isDigit = [] ∧ tail.dropWhile Char.isDigit = tail := by
          cases tail with
          | nil => exact ⟨rfl, rfl⟩
          | cons d r => simp [htail d r rfl]
        rw [wholePart, if_neg (by simpa using hlead), ← List.cons_append, hread, zero_mul, zero_add]
        dsimp only
        rw [hnone.1, hnone.2]
        rfl
    rw [List.cons_append, unsigned?, if_neg (by simp [hds.digits c List.mem_cons_self]), hpart]

end

/-! ## Numerals that are read -/

/-- Nothing, or the text of an exponent. -/
def exponentPart : Option Int → List Char
  | none => []
  | some x => 'e' :: (if x < 0 then '-' else '+') :: natChars x.natAbs

section

variable {n : Nat} {e x : Int}

theorem isSome_scaleByTen?_clamped (hn : n ≤ maxSignificand) (hlimit : (n : ℚ) * 10 ^ e ≤ scaleLimit) :
    (scaleByTen? n.toUInt64.toFloat (max (-2147483648) (min 2147483647 e))).isSome = true := by
  have hn' : n < 2 ^ 64 := Nat.lt_succ_of_le hn
  obtain rfl | hpos := Nat.eq_zero_or_pos n
  · exact isSome_scaleByTen?_zero _
  · have he : e ≤ 308 := exponent_le_of_le_scaleLimit hpos hlimit
    obtain hlow | hlow := lt_or_ge e (-2147483648)
    · exact isSome_scaleByTen?_of_le hn' (by omega)
    · rw [show max (-2147483648) (min 2147483647 e) = e by omega]
      exact isSome_scaleByTen? hn' hlimit

theorem isSome_withExponent? (hn : n ≤ maxSignificand) (hx : x ≤ 2147483647)
    (hlimit : (n : ℚ) * 10 ^ (e + x) ≤ scaleLimit) :
    (withExponent? n e (decide (x < 0)) (natChars x.natAbs)).isSome = true := by
  rw [withExponent?, if_neg (by simp [natChars_ne_nil]), natOfChars_natChars]
  dsimp only
  split
  · have hneg : x < 0 := by omega
    simp [hneg]
  · have hsum : (if decide (x < 0) = true then e - (x.natAbs : Int) else e + (x.natAbs : Int)) = e + x := by
      by_cases hneg : x < 0
      · rw [if_pos (by simpa using hneg)]
        omega
      · rw [if_neg (by simpa using hneg)]
        omega
    rw [hsum]
    exact isSome_scaleByTen?_clamped hn hlimit

theorem isSome_exponent? (hn : n ≤ maxSignificand) (hx : x ≤ 2147483647)
    (hlimit : (n : ℚ) * 10 ^ (e + x) ≤ scaleLimit) :
    (exponent? n e ((if x < 0 then '-' else '+') :: natChars x.natAbs)).isSome = true := by
  have hsign : exponentSign ((if x < 0 then '-' else '+') :: natChars x.natAbs) =
      (decide (x < 0), natChars x.natAbs) := by
    by_cases hneg : x < 0 <;> simp [hneg, exponentSign]
  have htake : (natChars x.natAbs).takeWhile Char.isDigit = natChars x.natAbs :=
    List.takeWhile_eq_self_iff.2 (digits_natChars _)
  rw [exponent?, hsign]
  dsimp only
  rw [htake, Option.isSome_map]
  exact isSome_withExponent? hn hx hlimit

theorem isSome_scaledNumber? {x? : Option Int} (hn : n ≤ maxSignificand) (hx : x?.getD 0 ≤ 2147483647)
    (hlimit : (n : ℚ) * 10 ^ (e + x?.getD 0) ≤ scaleLimit) :
    (scaledNumber? n e (exponentPart x?)).isSome = true := by
  cases x? with
  | none =>
    rw [Option.getD_none, add_zero] at hlimit
    show ((scaleByTen? n.toUInt64.toFloat e).map _).isSome = true
    rw [Option.isSome_map]
    exact isSome_scaleByTen? (Nat.lt_succ_of_le hn) hlimit
  | some x => exact isSome_exponent? hn hx hlimit

theorem endsDigits_exponentPart (x? : Option Int) : EndsDigits (exponentPart x?) := by
  rintro c r hc
  cases x? with
  | none => cases hc
  | some x =>
    rw [← (List.cons.inj hc).1]
    rfl

theorem ten_zpow_neg {k l : Nat} (hk : k ≤ l) : (10 : ℚ) ^ (0 - k : Int) = 10 ^ (l - k) / 10 ^ l := by
  rw [eq_div_iff (by positivity), ← zpow_natCast, ← zpow_natCast, ← zpow_add₀ (by norm_num)]
  congr 1
  omega

theorem isSome_fraction? {frac : List Char} {x? : Option Int} (hn : n ≤ maxSignificand)
    (hfrac : Digits frac) (hne : frac ≠ []) (hx : x?.getD 0 ≤ 2147483647)
    (hlimit : (n + natOfChars frac / 10 ^ frac.length) * (10 : ℚ) ^ x?.getD 0 ≤ scaleLimit) :
    (fraction? n 0 (frac ++ exponentPart x?)).isSome = true := by
  have htail := endsDigits_exponentPart x?
  obtain ⟨m, k, hread, hk, hle⟩ := exists_significand_digits hfrac htail n
  have hm : m ≤ maxSignificand := by
    have := significand_le hn (frac ++ exponentPart x?)
    rwa [hread] at this
  have hsome : ¬(k = 0 ∧ (frac.drop k ++ exponentPart x?).takeWhile Char.isDigit = []) := by
    rintro ⟨rfl, hnil⟩
    cases frac with
    | nil => exact hne rfl
    | cons c frac => simp [hfrac c List.mem_cons_self] at hnil
  have hrest : (frac.drop k ++ exponentPart x?).dropWhile Char.isDigit = exponentPart x? :=
    Digits.dropWhile_append (fun c hc => hfrac c (List.mem_of_mem_drop hc)) htail
  rw [fraction?, hread]
  dsimp only
  rw [if_neg hsome, hrest]
  refine isSome_scaledNumber? hm hx (le_trans ?_ hlimit)
  have hleq : (m : ℚ) * 10 ^ (frac.length - k) ≤ n * 10 ^ frac.length + natOfChars frac := by
    exact_mod_cast hle
  rw [zpow_add₀ (by norm_num), ← mul_assoc]
  refine mul_le_mul_of_nonneg_right ?_ (by positivity)
  rw [ten_zpow_neg hk, ← mul_div_assoc, div_le_iff₀ (by positivity), add_mul, div_mul_cancel₀ _ (by positivity)]
  exact hleq

theorem isSome_unsigned?_exponent {ds : List Char} (hds : Whole ds) (hmax : natOfChars ds ≤ maxSignificand)
    (hx : x ≤ 2147483647) (hlimit : (natOfChars ds : ℚ) * 10 ^ x ≤ scaleLimit) :
    (unsigned? (ds ++ exponentPart (some x))).isSome = true := by
  rw [unsigned?_whole hds hmax (endsDigits_exponentPart _)]
  show ((exponent? (natOfChars ds) (0 : Nat) _).map _).isSome = true
  rw [Option.isSome_map]
  exact isSome_exponent? hmax hx (by rwa [Nat.cast_zero, zero_add])

theorem isSome_unsigned?_fraction {ds frac : List Char} (x? : Option Int) (hds : Whole ds)
    (hmax : natOfChars ds ≤ maxSignificand) (hfrac : Digits frac) (hne : frac ≠ [])
    (hx : x?.getD 0 ≤ 2147483647)
    (hlimit : (natOfChars ds + natOfChars frac / 10 ^ frac.length) * (10 : ℚ) ^ x?.getD 0 ≤ scaleLimit) :
    (unsigned? (ds ++ '.' :: (frac ++ exponentPart x?))).isSome = true := by
  have hpoint : EndsDigits ('.' :: (frac ++ exponentPart x?)) := fun c r hc =>
    (List.cons.inj hc).1 ▸ rfl
  rw [unsigned?_whole hds hmax hpoint]
  show ((fraction? (natOfChars ds) (0 : Nat) _).map _).isSome = true
  rw [Option.isSome_map]
  exact isSome_fraction? hmax hfrac hne hx hlimit

theorem isSome_unsigned?_plain {ds frac : List Char} (hds : Whole ds) (hlength : ds.length ≤ 16)
    (hfrac : Digits frac) (hne : frac ≠ []) : (unsigned? (ds ++ '.' :: frac)).isSome = true := by
  have hwhole : natOfChars ds < 10 ^ 16 :=
    (natOfChars_lt hds.digits).trans_le (Nat.pow_le_pow_right (by decide) hlength)
  have hfraction : (natOfChars frac : ℚ) / 10 ^ frac.length < 1 := by
    rw [div_lt_one (by positivity)]
    exact_mod_cast natOfChars_lt hfrac
  have hlimit : 10 ^ 17 ≤ scaleLimit := by decide +kernel
  have hlimitq : (10 : ℚ) ^ 17 ≤ scaleLimit := by exact_mod_cast hlimit
  have hwholeq : (natOfChars ds : ℚ) < 10 ^ 16 := by exact_mod_cast hwhole
  have hread := isSome_unsigned?_fraction none hds (by rw [maxSignificand]; omega) hfrac hne
    (by decide) (by rw [Option.getD_none, zpow_zero, mul_one]; linarith)
  rwa [exponentPart, List.append_nil] at hread

end

end Json.Read

/-! ## Numbers that are read again -/

open Json.Read

theorem shortest_lead (tie : Tie) (x : Float) :
    Decimal.shortest tie x = ⟨[0], 0⟩ ∨ (Decimal.shortest tie x).digits.head? ≠ some 0 := by
  have hscaled (n : ℕ) (k : ℤ) :
      Decimal.ofScaled n k = ⟨[0], 0⟩ ∨ (Decimal.ofScaled n k).digits.head? ≠ some 0 := by
    unfold Decimal.ofScaled
    split
    · exact .inl rfl
    · right
      rw [List.head?_reverse, getLast?_stripZeros (getLast?_digitsRev n)]
      exact getLast?_digitsRev n
  unfold Decimal.shortest
  dsimp only
  split
  · exact .inl rfl
  · exact hscaled _ _

theorem whole_of_lead {d : ℕ} (hlt : d < 10) (hne : d ≠ 0) (ds : List Char) (hds : Digits ds) :
    Whole (digitChar d :: ds) := by
  have hzero : ∀ d < 10, d ≠ 0 → digitChar d ≠ '0' := by decide
  exact ⟨List.forall_mem_cons.2 ⟨Json.isDigit_digitChar hlt, hds⟩, List.cons_ne_nil _ _,
    .inr fun h => hzero d hlt hne (Option.some.inj h)⟩

theorem whole_digitChars_append {ds : List ℕ} (hne : ds ≠ []) (hlt : ∀ d ∈ ds, d < 10) (hlead : ds.head? ≠ some 0)
    {tail : List Char} (htail : Digits tail) : Whole (digitChars ds ++ tail) := by
  cases ds with
  | nil => exact absurd rfl hne
  | cons d ds =>
    obtain ⟨hd, hds⟩ := List.forall_mem_cons.1 hlt
    exact whole_of_lead hd (fun h => hlead (congrArg some h)) _ (digits_append (Json.digits_digitChars hds) htail)

theorem whole_digitChars {ds : List ℕ} (hne : ds ≠ []) (hlt : ∀ d ∈ ds, d < 10) (hlead : ds.head? ≠ some 0) :
    Whole (digitChars ds) := by
  have hwhole := whole_digitChars_append hne hlt hlead (List.forall_mem_nil _ : Digits [])
  rwa [List.append_nil] at hwhole

theorem whole_take_digitChars {ds : List ℕ} (hne : ds ≠ []) (hlt : ∀ d ∈ ds, d < 10) (hlead : ds.head? ≠ some 0)
    {k : ℕ} (hk : k ≠ 0) : Whole ((digitChars ds).take k) := by
  have htake : (digitChars ds).take k = digitChars (ds.take k) := List.map_take.symm
  rw [htake]
  refine whole_digitChars (by simp [hne, hk]) (fun n hn => hlt n (List.mem_of_mem_take hn)) ?_
  rwa [List.head?_take, if_neg hk]

theorem value_cons (a : ℕ) (ds : List ℕ) (x : ℤ) :
    (Decimal.mk (a :: ds) x).value = (a + ofDigits ds / 10 ^ ds.length) * (10 : ℚ) ^ x := by
  have hexp : x + 1 - ((ds.length + 1 : ℕ) : ℤ) = x - ds.length := by
    push_cast
    ring
  rw [Decimal.value, ofDigits_cons, List.length_cons, hexp, zpow_sub₀ (by norm_num), zpow_natCast]
  push_cast
  field_simp

theorem isSome_unsigned?_scientific {d : Decimal} (hne : d.digits ≠ []) (hlt : ∀ n ∈ d.digits, n < 10)
    (hlead : d.digits.head? ≠ some 0) (hvalue : d.value ≤ scaleLimit) :
    (unsigned? (pointAfterFirst (digitChars d.digits) ++ exponentPart (some d.exponent))).isSome = true := by
  obtain ⟨digits, x⟩ := d
  cases digits with
  | nil => exact absurd rfl hne
  | cons a ds =>
    obtain ⟨ha, hds⟩ := List.forall_mem_cons.1 hlt
    have hapos : a ≠ 0 := fun h => hlead (congrArg some h)
    have hwhole := whole_of_lead ha hapos [] fun _ h => absurd h List.not_mem_nil
    have hfirst : natOfChars [digitChar a] = a := by
      simp [natOfChars, ofDigits, digitValue_digitChar ha]
    have hmax : natOfChars [digitChar a] ≤ maxSignificand := by
      rw [hfirst, maxSignificand]
      omega
    rw [value_cons] at hvalue
    have hrest : (0 : ℚ) ≤ ofDigits ds / 10 ^ ds.length := by positivity
    have hlimit : (a : ℚ) * 10 ^ x ≤ scaleLimit :=
      (mul_le_mul_of_nonneg_right (le_add_of_nonneg_right hrest) (by positivity)).trans hvalue
    have hx : x ≤ 308 := exponent_le_of_le_scaleLimit (Nat.pos_of_ne_zero hapos) hlimit
    cases ds with
    | nil =>
      rw [← hfirst] at hlimit
      exact isSome_unsigned?_exponent hwhole hmax (hx.trans (by decide)) hlimit
    | cons b ds =>
      have hfrac : Digits (digitChars (b :: ds)) := Json.digits_digitChars hds
      have hlength : (digitChars (b :: ds)).length = (b :: ds).length := List.length_map _
      rw [← hfirst, ← natOfChars_digitChars hds, ← hlength] at hvalue
      exact isSome_unsigned?_fraction (some x) hwhole hmax hfrac (List.cons_ne_nil _ _) (hx.trans (by decide)) hvalue

theorem isSome_number?_of_unsigned? {body : List Char} (h : (unsigned? body).isSome = true)
    (b : Prop) [Decidable b] : (number? (if b then '-' :: body else body)).isSome = true := by
  split
  · rw [number?, Option.isSome_map]
    exact h
  · obtain ⟨⟨y, r⟩, hread⟩ := Option.isSome_iff_exists.1 h
    obtain ⟨-, c, cs, rfl, hdigit⟩ := takes_unsigned? hread
    rw [number?_of_no_minus, Option.isSome_map]
    · exact h
    · intro r hr
      rw [(List.cons.inj hr).1] at hdigit
      cases hdigit

def greatest : Float := Float.ofBits 0x7FEFFFFFFFFFFFFF

theorem hasParts_greatest : HasParts greatest (2 ^ 53 - 1) 971 :=
  hasParts_ofFloat (by decide +kernel) (by decide +kernel)

theorem isSome_number?_greatest : ∀ negative,
    (number? (canonicalChars (withSign negative greatest))).isSome = true := by
  decide +kernel

theorem eq_greatest {x : Float} (hx : x.isFinite = true) (hm : (FloatParts.ofFloat x).mant = 2 ^ 53 - 1)
    (he : (FloatParts.ofFloat x).exp = 971) : x = withSign (signBit x) greatest := by
  refine eq_of_unpack hx ?_
  rw [unpack_of_isFinite hx, hasParts_greatest.unpack_withSign, FloatParts.unpacked, hm, he]
  rfl

/-- **The text of a finite float** is read. -/
theorem isSome_number?_canonicalChars {x : Float} (hx : x.isFinite = true) :
    (number? (canonicalChars x)).isSome = true := by
  by_cases hgreatest : (FloatParts.ofFloat x).mant = 2 ^ 53 - 1 ∧ (FloatParts.ofFloat x).exp = 971
  · -- half a unit above the greatest number is more than halfway between the two greatest ones
    rw [eq_greatest hx hgreatest.1 hgreatest.2]
    exact isSome_number?_greatest _
  obtain ⟨hne, hlt⟩ := Json.shortest_digits .toEven x
  have hlead := shortest_lead .toEven x
  have hvalue := shortest_le_scaleLimit .toEven hx hgreatest
  unfold canonicalChars
  generalize Decimal.shortest .toEven x = d at hne hlt hlead hvalue ⊢
  refine isSome_number?_of_unsigned? ?_ _
  have hds := Json.digits_digitChars hlt
  have hdsne : digitChars d.digits ≠ [] := by simpa [digitChars] using hne
  -- the point stands behind the digits, among them or in front of them, or there is an exponent
  split
  · rename_i hpoint
    have hwhole : Whole (digitChars d.digits ++ zeros (d.exponent + 1 - (digitChars d.digits).length).toNat) := by
      rcases hlead with rfl | hlead
      · exact ⟨by simp [Digits, digitChars, digitChar, zeros], List.cons_ne_nil _ _, .inl rfl⟩
      · exact whole_digitChars_append hne hlt hlead (Json.digits_zeros _)
    rw [show ".0".toList = ['.', '0'] from rfl]
    exact isSome_unsigned?_plain hwhole (by simp [zeros]; omega) (by simp [Digits]) (List.cons_ne_nil _ _)
  · rename_i hbehind
    have hfirst : d.digits.head? ≠ some 0 := by
      rcases hlead with rfl | hlead
      · exact absurd (by decide) hbehind
      · exact hlead
    split
    · rename_i hpoint
      have hwhole : Whole ((digitChars d.digits).take (d.exponent + 1).toNat) :=
        whole_take_digitChars hne hlt hfirst (by omega)
      refine isSome_unsigned?_plain hwhole (by simp; omega) (fun c hc => hds c (List.mem_of_mem_drop hc)) ?_
      simp
      omega
    · split
      · have hzero : Whole ['0'] := ⟨by simp [Digits], List.cons_ne_nil _ _, .inl rfl⟩
        exact isSome_unsigned?_plain hzero (by decide) (digits_append (Json.digits_zeros _) hds) (by simp [hdsne])
      · exact isSome_unsigned?_scientific hne hlt hfirst hvalue

theorem whole_natChars (n : ℕ) : Whole (natChars n) := by
  obtain rfl | hpos := Nat.eq_zero_or_pos n
  · exact ⟨Json.digits_natChars 0, Json.natChars_ne_nil 0, .inl rfl⟩
  · have hdigits : digitsOf n = (digitsRev n).reverse := by rw [digitsOf, if_neg hpos.ne']
    have hne : digitsOf n ≠ [] := by
      rw [hdigits, digitsRev, if_neg hpos.ne']
      simp
    have hlead : (digitsOf n).head? ≠ some 0 := by
      rw [hdigits, List.head?_reverse]
      exact getLast?_digitsRev n
    exact whole_digitChars hne (fun _ hd => Json.lt_ten_of_mem_digitsOf hd) hlead

/-- **The text of a number in range** is read. -/
theorem isSome_rereadNumber? {n : JsonNumber} (h : n.InRange) : (Json.rereadNumber? n).isSome = true := by
  rw [Json.rereadNumber?, Option.isSome_map]
  cases n with
  | int n =>
    have hread := unsigned?_whole (whole_natChars n.natAbs) (by rwa [natOfChars_natChars]) endsDigits_nil
    refine isSome_number?_of_unsigned? ?_ _
    rw [← List.append_nil (natChars _), hread]
    rfl
  | float x => exact isSome_number?_canonicalChars h

/-! ## Documents that are read again -/

mutual

/-- **The text of a document** with numbers in range is read exactly if it is not nested too deep. -/
theorem isSome_reread?_iff (j : Json) (hj : j.InRange) (d : ℕ) :
    (j.reread? d).isSome = true ↔ j.depth ≤ d := by
  cases j with
  | num n =>
    rw [Json.reread?, Option.isSome_map]
    exact iff_of_true (isSome_rereadNumber? hj) (Nat.zero_le d)
  | arr js =>
    cases d with
    | zero => exact iff_of_false nofun (Nat.not_succ_le_zero _)
    | succ d =>
      rw [Json.reread?, Option.isSome_map, Json.depth, Nat.add_le_add_iff_right]
      exact isSome_rereadItems?_iff js hj d
  | obj ms =>
    cases d with
    | zero => exact iff_of_false nofun (Nat.not_succ_le_zero _)
    | succ d =>
      rw [Json.reread?, Option.isSome_map, Json.depth, Nat.add_le_add_iff_right]
      exact isSome_rereadMembers?_iff ms hj d
  | _ => cases d <;> exact iff_of_true rfl (Nat.zero_le _)

theorem isSome_rereadItems?_iff (js : List Json) (hjs : InRangeItems js) (d : ℕ) :
    (rereadItems? js d).isSome = true ↔ depthItems js ≤ d := by
  match js with
  | [] => exact iff_of_true rfl (Nat.zero_le d)
  | j :: js =>
    rw [depthItems, Nat.max_le, ← isSome_reread?_iff j hjs.1 d, ← isSome_rereadItems?_iff js hjs.2 d,
      rereadItems?]
    cases j.reread? d <;> cases rereadItems? js d <;> simp

theorem isSome_rereadMembers?_iff (ms : List (String × Json)) (hms : InRangeMembers ms) (d : ℕ) :
    (rereadMembers? ms d).isSome = true ↔ depthMembers ms ≤ d := by
  match ms with
  | [] => exact iff_of_true rfl (Nat.zero_le d)
  | (k, j) :: ms =>
    rw [depthMembers, Nat.max_le, ← isSome_reread?_iff j hms.1 d, ← isSome_rereadMembers?_iff ms hms.2 d,
      rereadMembers?]
    cases j.reread? d <;> cases rereadMembers? ms d <;> simp

end

theorem get?_rereadMembers? {ms ms' : Members} {d : ℕ} (h : rereadMembers? ms d = some ms') (key : String) :
    Entries.get? ms' key = (Entries.get? ms key).bind (·.reread? d) := by
  induction ms generalizing ms' with
  | nil =>
    rw [← Option.some.inj h]
    rfl
  | cons m ms ih =>
    obtain ⟨j, hj, h⟩ := Option.bind_eq_some_iff.1 h
    obtain ⟨rest, hrest, h⟩ := Option.bind_eq_some_iff.1 h
    rw [← Option.some.inj h, Entries.get?_cons, Entries.get?_cons, ih hrest]
    split
    · exact hj.symm
    · rfl

end ChartTemplate
