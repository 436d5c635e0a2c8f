import ChartTemplate.Proofs.Format.CutOff
import ChartTemplate.Proofs.Numeric.Leading

/-!
# Digits of the exact value

`Decimal.expand` rounds a number to a number of digits, and `Decimal.roundTo` rounds digits to fewer of
them, halves upward.

* `exists_expand` : the expansion has the digits asked for, and is as near to the number as digits at these
  places can be.
* `Decimal.roundTo_spec` : rounded digits denote the whole number nearest to what they denote in units of the last
  digit that is kept, through any run of nines.
-/

namespace ChartTemplate

/-! ## Expansions -/

namespace Decimal

/-- There are digits, and each is below ten. -/
structure IsExpansion (d : Decimal) : Prop where
  ne_nil : d.digits ≠ []
  lt_ten : ∀ n ∈ d.digits, n < 10

/-- There are digits, each is below ten, and the first is not zero. -/
structure IsLeading (d : Decimal) : Prop extends d.IsExpansion where
  full : 10 ^ (d.digits.length - 1) ≤ ofDigits d.digits

variable {d : Decimal}

theorem IsExpansion.length_pos (h : d.IsExpansion) : 0 < d.digits.length :=
  List.length_pos_iff.2 h.ne_nil

theorem IsLeading.leading_value (h : d.IsLeading) : 0 < d.value ∧ leading d.value = d.exponent := by
  have hlength := h.length_pos
  have hlow : (10 : ℚ) ^ ((d.digits.length : ℤ) - 1) ≤ ofDigits d.digits := by
    rw [show (d.digits.length : ℤ) - 1 = ((d.digits.length - 1 : ℕ) : ℤ) by omega, zpow_natCast]
    exact_mod_cast h.full
  have hhigh : (ofDigits d.digits : ℚ) < 10 ^ (d.digits.length : ℤ) := by
    rw [zpow_natCast]
    exact_mod_cast ofDigits_lt h.lt_ten
  have hpos : (0 : ℚ) < ofDigits d.digits := (ten_zpow_pos _).trans_le hlow
  have hlead : leading (ofDigits d.digits) = d.digits.length - 1 :=
    (leading_eq_iff hpos).2 ⟨hlow, by rwa [sub_add_cancel]⟩
  refine ⟨mul_pos hpos (ten_zpow_pos _), ?_⟩
  rw [value, leading_mul_zpow hpos, hlead]
  ring

end Decimal

theorem length_digitsOf {n k : ℕ} (hlow : 10 ^ k ≤ n) (hhigh : n < 10 ^ (k + 1)) :
    (digitsOf n).length = k + 1 := by
  have hn : n ≠ 0 := by
    have := Nat.pow_pos (n := k) (show 0 < 10 by norm_num)
    omega
  rw [digitsOf, if_neg hn, List.length_reverse]
  induction k generalizing n with
  | zero =>
    rw [digitsRev, if_neg hn, digitsRev, if_pos (by omega)]
    rfl
  | succ k ih =>
    rw [pow_succ] at hlow hhigh
    have hdiv : n / 10 ≠ 0 := by
      have := Nat.pow_pos (n := k) (show 0 < 10 by norm_num)
      omega
    rw [digitsRev, if_neg hn, List.length_cons, ih (by omega) (by omega) hdiv]

theorem ofDigits_digitsOf (n : ℕ) : ofDigits (digitsOf n) = n := by
  rw [digitsOf]
  split
  · rename_i hn
    rw [hn]
    rfl
  · exact ofDigits_reverse_digitsRev n

theorem isLeading_digitsOf {n k : ℕ} (hlow : 10 ^ k ≤ n) (hhigh : n < 10 ^ (k + 1)) (e : ℤ) :
    (Decimal.mk (digitsOf n) e).IsLeading where
  ne_nil := digitsOf_ne_nil n
  lt_ten _ hd := Json.lt_ten_of_mem_digitsOf hd
  full := by
    show 10 ^ ((digitsOf n).length - 1) ≤ ofDigits (digitsOf n)
    rw [ofDigits_digitsOf, length_digitsOf hlow hhigh]
    exact hlow

/-! ## Rounded quotients -/

section

variable (tie : Tie) (num : ℕ) {den : ℕ}

theorem le_roundDiv_of_le (hden : 0 < den) {n : ℕ} (h : (n : ℚ) ≤ num / den) : n ≤ roundDiv tie num den := by
  have hdenq : (0 : ℚ) < den := by exact_mod_cast hden
  rw [le_div_iff₀ hdenq] at h
  have hle : n ≤ num / den := (Nat.le_div_iff_mul_le hden).2 (by exact_mod_cast h)
  rcases roundDiv_eq tie num den with heq | heq <;> omega

theorem roundDiv_le_of_le (hden : 0 < den) {n : ℕ} (h : (num : ℚ) / den ≤ n) : roundDiv tie num den ≤ n := by
  have hround := roundDiv_le tie num hden
  have hlt : (roundDiv tie num den : ℚ) < (n + 1 : ℕ) := by
    push_cast
    linarith
  exact Nat.lt_succ_iff.1 (by exact_mod_cast hlt)

end

/-! ## Digits of a number -/

/-- The magnitude of a finite number. -/
def absValue (x : Float) : ℚ :=
  magnitude (FloatParts.ofFloat x).mant (FloatParts.ofFloat x).exp

theorem mant_pos_of_absValue {x : Float} (hx : 0 < absValue x) : 0 < (FloatParts.ofFloat x).mant := by
  refine Nat.pos_of_ne_zero fun hm => ?_
  rw [absValue, hm, magnitude, Nat.cast_zero, zero_mul] at hx
  exact lt_irrefl _ hx

/-- The number in units of the last of `c + 1` digits has as many digits in front of its point. -/
theorem scaled_bounds {v : ℚ} (hv : 0 < v) (c : ℕ) :
    ((10 ^ c : ℕ) : ℚ) ≤ v * 10 ^ ((c : ℤ) - leading v) ∧
      v * 10 ^ ((c : ℤ) - leading v) < ((10 ^ (c + 1) : ℕ) : ℚ) := by
  have hshift (k : ℤ) : (10 : ℚ) ^ (leading v + k) * 10 ^ ((c : ℤ) - leading v) = 10 ^ ((c : ℤ) + k) := by
    rw [← zpow_add₀ (by norm_num)]
    congr 1
    ring
  have hlow := mul_le_mul_of_nonneg_right (ten_zpow_leading_le hv) (ten_zpow_pos (c - leading v)).le
  have hhigh := mul_lt_mul_of_pos_right (lt_ten_zpow_leading hv) (ten_zpow_pos (c - leading v))
  rw [hshift] at hhigh
  have hfirst := hshift 0
  rw [add_zero, add_zero, zpow_natCast] at hfirst
  rw [hfirst] at hlow
  refine ⟨by exact_mod_cast hlow, ?_⟩
  rw [show (c : ℤ) + 1 = ((c + 1 : ℕ) : ℤ) by push_cast; rfl, zpow_natCast] at hhigh
  exact_mod_cast hhigh

/-- A whole number is the number rounded in units of the last of `c + 1` digits. -/
structure Expands (v : ℚ) (c n : ℕ) : Prop where
  low : 10 ^ c ≤ n
  high : n ≤ 10 ^ (c + 1)
  le : (n : ℚ) ≤ v * 10 ^ ((c : ℤ) - leading v) + 1 / 2
  reach : ∀ k : ℕ, (k : ℚ) ≤ v * 10 ^ ((c : ℤ) - leading v) → k ≤ n

/-- The digits of a whole number that stands for a number with this leading digit. They may be one too many
if it was rounded up. -/
def ofRounded (n c : ℕ) (lead : ℤ) : Decimal :=
  if 10 ^ (c + 1) ≤ n then ⟨digitsOf (n / 10), lead + 1⟩ else ⟨digitsOf n, lead⟩

theorem isLeading_ofRounded {n c : ℕ} (hlow : 10 ^ c ≤ n) (hhigh : n ≤ 10 ^ (c + 1)) (lead : ℤ) :
    (ofRounded n c lead).IsLeading ∧ (ofRounded n c lead).digits.length = c + 1 ∧
      (ofRounded n c lead).value = n * 10 ^ (lead - c) := by
  unfold ofRounded
  split
  · -- Nines were rounded up to a further digit.
    rename_i hle
    have htop : n = 10 ^ c * 10 := by
      rw [← pow_succ]
      exact hhigh.antisymm hle
    have hdiv : n / 10 = 10 ^ c := by omega
    have hpow : (10 : ℕ) ^ c < 10 ^ (c + 1) := Nat.pow_lt_pow_right (by norm_num) (Nat.lt_succ_self c)
    have hexp : lead + 1 + 1 - ((c + 1 : ℕ) : ℤ) = lead - c + 1 := by push_cast; ring
    rw [hdiv]
    refine ⟨isLeading_digitsOf le_rfl hpow _, length_digitsOf le_rfl hpow, ?_⟩
    rw [Decimal.value, length_digitsOf le_rfl hpow, ofDigits_digitsOf, htop, hexp, zpow_add₀ (by norm_num)]
    push_cast
    ring
  · rename_i hlt
    rw [not_le] at hlt
    refine ⟨isLeading_digitsOf hlow hlt _, length_digitsOf hlow hlt, ?_⟩
    rw [Decimal.value, length_digitsOf hlow hlt, ofDigits_digitsOf]
    congr 2
    push_cast
    ring

/-- A quotient that is a number in units of the last of `c + 1` digits is rounded to an expansion. -/
theorem expands_roundDiv {v : ℚ} (hv : 0 < v) (c : ℕ) (tie : Tie) {num den : ℕ} (hden : 0 < den)
    (hquotient : (num : ℚ) / den = v * 10 ^ ((c : ℤ) - leading v)) : Expands v c (roundDiv tie num den) := by
  obtain ⟨hlow, hhigh⟩ := scaled_bounds hv c
  rw [← hquotient] at hlow hhigh
  refine ⟨le_roundDiv_of_le tie num hden hlow, roundDiv_le_of_le tie num hden hhigh.le, ?_, fun k hk => ?_⟩
  · rw [← hquotient]
    exact roundDiv_le tie num hden
  · rw [← hquotient] at hk
    exact le_roundDiv_of_le tie num hden hk

theorem expand_eq {x : Float} (hfinite : x.isFinite = true) (hx : 0 < absValue x) (c : ℕ) :
    Decimal.expand x (c + 1) =
      ofRounded (roundDiv .toEven ((FloatParts.ofFloat x).scaled (c - leading (absValue x))).1
        ((FloatParts.ofFloat x).scaled (c - leading (absValue x))).2) c (leading (absValue x)) := by
  have hm := mant_pos_of_absValue hx
  have hlead : (FloatParts.ofFloat x).leadExponent = leading (absValue x) :=
    FloatParts.leadExponent_eq hm (canonical_ofFloat x) (exp_le_of_isFinite hfinite)
  have hscale : ((c + 1 : ℕ) : ℤ) - 1 - leading (absValue x) = c - leading (absValue x) := by
    push_cast
    ring
  rw [Decimal.expand, if_neg hm.ne', hlead]
  dsimp only
  rw [hscale]
  rfl

/-- **The expansion** of a number has the digits asked for, and denotes the number rounded to them. -/
theorem exists_expand {x : Float} (hfinite : x.isFinite = true) (hx : 0 < absValue x) (c : ℕ) :
    (Decimal.expand x (c + 1)).IsLeading ∧ (Decimal.expand x (c + 1)).digits.length = c + 1 ∧
      ∃ n : ℕ, Expands (absValue x) c n ∧
        (Decimal.expand x (c + 1)).value = n * 10 ^ (leading (absValue x) - c) := by
  have hexpands := expands_roundDiv hx c .toEven (scaled_pos (FloatParts.ofFloat x) (c - leading (absValue x)))
    (scaled_div _ _)
  obtain ⟨hleading, hlength, hvalue⟩ := isLeading_ofRounded hexpands.low hexpands.high (leading (absValue x))
  rw [expand_eq hfinite hx]
  exact ⟨hleading, hlength, _, hexpands, hvalue⟩

/-! ## Fewer digits -/

theorem ofDigits_zeros (n : ℕ) : ofDigits (List.replicate n 0) = 0 := by
  induction n with
  | zero => rfl
  | succ n ih => rw [List.replicate_succ, ofDigits_cons, ih, Nat.zero_mul]

/-- **One more** in the last place, unless all digits are nines: then they become zeros, and one more digit
is needed. -/
theorem increment_cases {ds : List ℕ} (hds : ∀ d ∈ ds, d < 10) :
    (∃ ds', increment ds = (ds', false) ∧ (∀ d ∈ ds', d < 10) ∧ ds'.length = ds.length ∧
      ofDigits ds' = ofDigits ds + 1) ∨
    (increment ds = (List.replicate ds.length 0, true) ∧ ofDigits ds + 1 = 10 ^ ds.length) := by
  induction ds with
  | nil => exact .inr ⟨rfl, rfl⟩
  | cons d ds ih =>
    obtain ⟨hd, hds⟩ := List.forall_mem_cons.1 hds
    rcases ih hds with ⟨ds', hrest, hlt, hlength, hvalue⟩ | ⟨hrest, hvalue⟩
    · refine .inl ⟨d :: ds', by rw [increment, hrest], List.forall_mem_cons.2 ⟨hd, hlt⟩, ?_, ?_⟩
      · rw [List.length_cons, List.length_cons, hlength]
      · rw [ofDigits_cons, ofDigits_cons, hvalue, hlength]
        omega
    · by_cases hnine : d = 9
      · refine .inr ⟨by rw [increment, hrest]; exact if_pos hnine, ?_⟩
        rw [ofDigits_cons, hnine, List.length_cons, pow_succ]
        omega
      · refine .inl ⟨(d + 1) :: List.replicate ds.length 0, by rw [increment, hrest]; exact if_neg hnine,
          List.forall_mem_cons.2 ⟨by omega, by simp⟩, by simp, ?_⟩
        rw [ofDigits_cons, ofDigits_cons, ofDigits_zeros, List.length_replicate, Nat.add_mul]
        omega

theorem half_le_iff {ds : List ℕ} (hds : ∀ d ∈ ds, d < 10) (hne : ds ≠ []) :
    5 ≤ ds.getD 0 0 ↔ 10 ^ ds.length ≤ 2 * ofDigits ds := by
  cases ds with
  | nil => exact absurd rfl hne
  | cons d ds =>
    obtain ⟨hd, hds⟩ := List.forall_mem_cons.1 hds
    have hlt := ofDigits_lt hds
    rw [ofDigits_cons, List.length_cons, pow_succ, List.getD_cons_zero]
    constructor
    · intro h
      have := Nat.mul_le_mul_right (10 ^ ds.length) h
      omega
    · intro h
      by_contra hsmall
      have := Nat.mul_le_mul_right (10 ^ ds.length) (show d ≤ 4 by omega)
      omega

theorem floor_half (q : ℤ) {r m : ℕ} (hm : 0 < m) (hr : r < m) :
    ⌊(q : ℚ) + r / m + 1 / 2⌋ = q + if m ≤ 2 * r then 1 else 0 := by
  have hmq : (0 : ℚ) < m := by exact_mod_cast hm
  have hrq : (r : ℚ) / m < 1 := by
    rw [div_lt_one hmq]
    exact_mod_cast hr
  have hrpos : (0 : ℚ) ≤ r / m := by positivity
  rw [Int.floor_eq_iff]
  split_ifs with hhalf
  · have : (1 : ℚ) / 2 ≤ r / m := by
      rw [div_le_div_iff₀ two_pos hmq]
      have : (m : ℚ) ≤ 2 * r := by exact_mod_cast hhalf
      linarith
    push_cast
    constructor <;> linarith
  · have : (r : ℚ) / m < 1 / 2 := by
      rw [div_lt_div_iff₀ hmq two_pos]
      have : 2 * (r : ℚ) < m := by exact_mod_cast not_le.1 hhalf
      linarith
    push_cast
    constructor <;> linarith

namespace Decimal

variable {d : Decimal}

def keep (d : Decimal) (count : ℕ) : Decimal :=
  ⟨d.digits.take count, d.exponent⟩

/-- What is behind the first digits. -/
def cut (d : Decimal) (count : ℕ) : List ℕ :=
  d.digits.drop count

/-- One more in the last digit, and as many digits. -/
def stepUp (d : Decimal) : Decimal :=
  match increment d.digits with
  | (ds, true) => ⟨(1 :: ds).dropLast, d.exponent + 1⟩
  | (ds, false) => ⟨ds, d.exponent⟩

section

variable {count : ℕ}

theorem length_keep (hle : count ≤ d.digits.length) : (d.keep count).digits.length = count := by
  rw [keep, List.length_take]
  omega

theorem length_cut (d : Decimal) (count : ℕ) : (d.cut count).length = d.digits.length - count :=
  List.length_drop

theorem IsExpansion.cut_lt_ten (h : d.IsExpansion) : ∀ n ∈ d.cut count, n < 10 := fun n hn =>
  h.lt_ten n (List.mem_of_mem_drop hn)

theorem ofDigits_keep_cut (d : Decimal) (count : ℕ) :
    ofDigits d.digits =
      ofDigits (d.keep count).digits * 10 ^ (d.cut count).length + ofDigits (d.cut count) := by
  rw [← ofDigits_append, keep, cut, List.take_append_drop]

theorem IsLeading.keep (h : d.IsLeading) (hcount : 0 < count) (hle : count ≤ d.digits.length) :
    (d.keep count).IsLeading where
  ne_nil hnil := by
    have hlength := length_keep hle
    rw [hnil, List.length_nil] at hlength
    omega
  lt_ten n hn := h.lt_ten n (List.mem_of_mem_take hn)
  full := by
    have hcut : ofDigits (d.cut count) < 10 ^ (d.cut count).length := ofDigits_lt h.cut_lt_ten
    have hfull := h.full
    rw [ofDigits_keep_cut d count,
      show d.digits.length - 1 = count - 1 + (d.cut count).length by rw [length_cut]; omega, pow_add] at hfull
    rw [length_keep hle]
    by_contra hsmall
    have := Nat.mul_le_mul_right (10 ^ (d.cut count).length) (not_le.1 hsmall)
    rw [Nat.succ_mul] at this
    omega

/-- **One more** in the last digit. -/
theorem IsLeading.stepUp (h : d.IsLeading) :
    d.stepUp.IsLeading ∧ d.stepUp.digits.length = d.digits.length ∧
      d.stepUp.value = (ofDigits d.digits + 1) * 10 ^ (d.exponent + 1 - d.digits.length) := by
  unfold Decimal.stepUp
  rcases increment_cases h.lt_ten with ⟨ds, hds, hlt, hlength, hvalue⟩ | ⟨hds, hvalue⟩
  · rw [hds]
    refine ⟨⟨⟨?_, hlt⟩, ?_⟩, hlength, ?_⟩
    · exact List.ne_nil_of_length_pos (hlength ▸ h.length_pos)
    · show 10 ^ (ds.length - 1) ≤ ofDigits ds
      rw [hlength, hvalue]
      exact h.full.trans (Nat.le_succ _)
    · rw [value, hvalue, hlength]
      push_cast
      rfl
  · -- All digits are nines.
    obtain ⟨c, hc⟩ : ∃ c, d.digits.length = c + 1 := ⟨d.digits.length - 1, by have := h.length_pos; omega⟩
    have hzeros : (1 :: List.replicate (c + 1) 0).dropLast = 1 :: List.replicate c 0 := by
      rw [List.replicate_succ', ← List.cons_append, List.dropLast_concat]
    have hone : ofDigits (1 :: List.replicate c 0) = 10 ^ c := by
      rw [ofDigits_cons, ofDigits_zeros, List.length_replicate, one_mul, add_zero]
    have hsum : (ofDigits d.digits : ℚ) + 1 = 10 ^ ((c : ℤ) + 1) := by
      rw [hc] at hvalue
      exact_mod_cast hvalue
    rw [hds, hc]
    dsimp only
    rw [hzeros]
    refine ⟨⟨⟨List.cons_ne_nil _ _, by simp⟩, ?_⟩, by simp, ?_⟩
    · show 10 ^ ((1 :: List.replicate c 0).length - 1) ≤ ofDigits (1 :: List.replicate c 0)
      rw [hone, List.length_cons, List.length_replicate, Nat.add_sub_cancel]
    · rw [value, hone, hsum, List.length_cons, List.length_replicate]
      push_cast
      rw [← zpow_natCast, ← zpow_add₀ (by norm_num), ← zpow_add₀ (by norm_num)]
      congr 1
      ring

theorem value_keep_cut (hle : count ≤ d.digits.length) :
    d.value * 10 ^ ((count : ℤ) - 1 - d.exponent) =
      (ofDigits (d.keep count).digits : ℤ) + ofDigits (d.cut count) / (10 ^ (d.cut count).length : ℕ) := by
  have hexp : d.exponent + 1 - d.digits.length + ((count : ℤ) - 1 - d.exponent) =
      -((d.cut count).length : ℤ) := by
    rw [length_cut]
    omega
  rw [value, mul_assoc, ← zpow_add₀ (by norm_num), hexp, zpow_neg, zpow_natCast, ofDigits_keep_cut d count]
  push_cast
  field_simp

theorem roundTo_eq (h : d.IsExpansion) (hlength : count < d.digits.length) :
    d.roundTo count =
      if 10 ^ (d.cut count).length ≤ 2 * ofDigits (d.cut count) then (d.keep count).stepUp
      else d.keep count := by
  have hne : d.cut count ≠ [] := by
    rw [← List.length_pos_iff, length_cut]
    omega
  have hnext : d.digits.getD count 0 = (d.cut count).getD 0 0 := by
    rw [cut, List.getD_eq_getElem?_getD, List.getD_eq_getElem?_getD, List.getElem?_drop, add_zero]
  rw [roundTo, hnext]
  exact if_congr (half_le_iff h.cut_lt_ten hne) rfl rfl

/-- **Fewer digits** of an expansion denote the whole number nearest to what the expansion denotes in units
of the last digit that is kept, halves upward. -/
theorem roundTo_spec (h : d.IsLeading) (hcount : 0 < count) (hlength : count < d.digits.length) :
    (d.roundTo count).IsLeading ∧ (d.roundTo count).digits.length = count ∧
      (d.roundTo count).value =
        ⌊d.value * 10 ^ ((count : ℤ) - 1 - d.exponent) + 1 / 2⌋ * 10 ^ (d.exponent + 1 - count) := by
  have hkeep := h.keep hcount hlength.le
  have hkept := length_keep hlength.le
  have hexponent : (d.keep count).exponent = d.exponent := rfl
  rw [roundTo_eq h.toIsExpansion hlength, value_keep_cut hlength.le,
    floor_half _ (by positivity) (ofDigits_lt h.cut_lt_ten)]
  split_ifs with hhalf
  · obtain ⟨hstep, hsteps, hvalue⟩ := hkeep.stepUp
    refine ⟨hstep, hsteps.trans hkept, ?_⟩
    rw [hvalue, hkept, hexponent]
    push_cast
    rfl
  · refine ⟨hkeep, hkept, ?_⟩
    rw [value, hkept, hexponent]
    push_cast
    rw [add_zero]

end

end Decimal

/-! ## Significant digits -/

section

variable {x : Float}

theorem beq_zero_iff (hfinite : x.isFinite = true) : (x == 0) = true ↔ absValue x = 0 := by
  have hcompare : (x == 0) = (x.toModel.unpack.compare (.zero .positive) == some .eq) := rfl
  rw [hcompare, unpack_of_isFinite hfinite, FloatParts.unpacked, absValue, magnitude_eq_zero_iff]
  by_cases hm : (FloatParts.ofFloat x).mant = 0
  · rw [hm, unpackedOf_zero]
    exact iff_of_true rfl rfl
  · rw [unpackedOf_pos _ (Nat.pos_of_ne_zero hm)]
    refine iff_of_false ?_ hm
    cases signOf (FloatParts.ofFloat x).negative <;> exact Bool.false_ne_true

theorem significantDigits_of_pos (hfinite : x.isFinite = true) (hx : 0 < absValue x) (count : ℕ) :
    significantDigits x count = (Decimal.expand x (count + guardDigits + 1)).roundTo count := by
  rw [significantDigits, if_neg (mt (beq_zero_iff hfinite).1 hx.ne'), if_pos hfinite]

theorem isExpansion_significantDigits (hfinite : x.isFinite = true) {count : ℕ} (hcount : 0 < count) :
    (significantDigits x count).IsExpansion ∧ (significantDigits x count).digits.length = count := by
  by_cases hzero : absValue x = 0
  · rw [significantDigits, if_pos ((beq_zero_iff hfinite).2 hzero), Nat.max_eq_left hcount]
    refine ⟨⟨?_, ?_⟩, List.length_replicate⟩
    · simpa using hcount.ne'
    · simp
  · have hx : 0 < absValue x := lt_of_le_of_ne (magnitude_nonneg _ _) (Ne.symm hzero)
    obtain ⟨hexpand, hlength, -⟩ := exists_expand hfinite hx (count + guardDigits)
    rw [significantDigits_of_pos hfinite hx]
    obtain ⟨hround, hcount, -⟩ := Decimal.roundTo_spec hexpand hcount (by omega)
    exact ⟨hround.toIsExpansion, hcount⟩

theorem isExpansion_shortest (tie : Tie) (x : Float) : (Decimal.shortest tie x).IsExpansion :=
  ⟨(Json.shortest_digits tie x).1, (Json.shortest_digits tie x).2⟩

end

end ChartTemplate
