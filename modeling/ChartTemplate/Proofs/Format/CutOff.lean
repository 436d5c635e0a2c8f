import ChartTemplate.Format.NumberFormat
import ChartTemplate.Proofs.InPlace.Work
import ChartTemplate.Proofs.Json.Numeral
import ChartTemplate.Proofs.Numeric.Integers

/-!
# Where number formats are cut off

A finite number has digits (`digits_significantDigits_eq_nil_iff`). A point can be placed in them, but
not in an infinite number that is written with an exponent. So formatting has a result in all other
cases (`NumberFormat.format_eq_error_iff`). Which formats these are can be told from the specifier
(`NumberFormat.cutOff_ofSpec_iff`).
-/

namespace ChartTemplate

variable {f : Fault} {x : Float}

/-! ## Infinite numbers -/

section Infinite

open Float.Model (UnpackedFloat)

theorem isFinite_iff (x : Float) : x.isFinite = true ↔ x.isNaN = false ∧ x.isInf = false := by
  show x.toModel.unpack.isFinite = true ↔
    x.toModel.unpack.isNaN = false ∧ x.toModel.unpack.isInf = false
  cases x.toModel.unpack <;> simp [UnpackedFloat.isFinite, UnpackedFloat.isNaN, UnpackedFloat.isInf]

theorem isInf_of_isNaN (hnan : x.isNaN = true) : x.isInf = false := by
  have hnan : x.toModel.unpack.isNaN = true := hnan
  show x.toModel.unpack.isInf = false
  cases hu : x.toModel.unpack with
  | infinity s => rw [hu] at hnan; cases hnan
  | _ => rfl

theorem isFinite_abs (hx : x.isFinite = true) : x.abs.isFinite = true :=
  isFinite_of_unpack (unpack_abs hx)

theorem unpack_abs_of_isInf (hinf : x.isInf = true) :
    x.abs.toModel.unpack = .infinity .positive := by
  have hinf : x.toModel.unpack.isInf = true := hinf
  show (Float.Model.pack x.toModel.unpack.abs).unpack = _
  cases hu : x.toModel.unpack with
  | infinity s => cases s <;> rfl
  | _ => rw [hu] at hinf; cases hinf

theorem isNaN_abs (hnan : x.isNaN = false) : x.abs.isNaN = false := by
  cases hinf : x.isInf with
  | true =>
    show x.abs.toModel.unpack.isNaN = false
    rw [unpack_abs_of_isInf hinf]
    rfl
  | false => exact ((isFinite_iff _).1 (isFinite_abs ((isFinite_iff x).2 ⟨hnan, hinf⟩))).1

theorem isInf_abs (hnan : x.isNaN = false) : x.abs.isInf = x.isInf := by
  cases hinf : x.isInf with
  | true =>
    show x.abs.toModel.unpack.isInf = true
    rw [unpack_abs_of_isInf hinf]
    rfl
  | false => exact ((isFinite_iff _).1 (isFinite_abs ((isFinite_iff x).2 ⟨hnan, hinf⟩))).2

end Infinite

/-! ## Digits -/

theorem digitsOf_ne_nil (n : Nat) : digitsOf n ≠ [] := fun h =>
  Json.natChars_ne_nil n (by rw [natChars, digitChars, h, List.map_nil])

theorem length_increment (ds : List Nat) : (increment ds).1.length = ds.length := by
  induction ds with
  | nil => rfl
  | cons d ds ih =>
    rw [increment]
    split
    · rename_i rest hrest
      rw [hrest] at ih
      split <;> simpa using ih
    · rename_i rest hrest
      rw [hrest] at ih
      simpa using ih

theorem Decimal.digits_roundTo_ne_nil {d : Decimal} (hd : d.digits ≠ []) {count : Nat}
    (hcount : 0 < count) : (d.roundTo count).digits ≠ [] := by
  have hkept : 0 < (d.digits.take count).length := by
    rw [List.length_take]
    have := List.length_pos_iff.2 hd
    omega
  have hlength := length_increment (d.digits.take count)
  unfold roundTo
  refine List.length_pos_iff.1 ?_
  dsimp only
  split
  · split
    · rename_i ds h
      rw [h] at hlength
      simpa [hlength] using hkept
    · rename_i ds h
      rw [h] at hlength
      simpa [hlength] using hkept
  · exact hkept

theorem Decimal.digits_expand_ne_nil (x : Float) {count : Nat} (hcount : 0 < count) :
    (expand x count).digits ≠ [] := by
  unfold expand
  dsimp only
  split
  · simpa using hcount.ne'
  · split
    · exact digitsOf_ne_nil _
    · exact digitsOf_ne_nil _

theorem significantDigits_of_isInf (hinf : x.isInf = true) (count : Nat) :
    significantDigits x.abs count = ⟨[], 0⟩ := by
  have hfinite : x.abs.isFinite = false := by
    show x.abs.toModel.unpack.isFinite = false
    rw [unpack_abs_of_isInf hinf]
    rfl
  have hzero : (x.abs == 0) = false := by
    show (x.abs.toModel.unpack.compare _ == some .eq) = false
    rw [unpack_abs_of_isInf hinf]
    rfl
  rw [significantDigits, hzero, hfinite]
  rfl

theorem digits_significantDigits_eq_nil_iff (hnan : x.isNaN = false) {count : Nat} (hcount : 0 < count) :
    (significantDigits x.abs count).digits = [] ↔ x.isInf = true := by
  cases hinf : x.isInf with
  | true =>
    rw [significantDigits_of_isInf hinf]
    exact iff_of_true rfl rfl
  | false =>
    rw [significantDigits, isFinite_abs ((isFinite_iff x).2 ⟨hnan, hinf⟩)]
    refine iff_of_false ?_ Bool.false_ne_true
    split
    · simp
    · exact Decimal.digits_roundTo_ne_nil (Decimal.digits_expand_ne_nil _ (by omega)) hcount

/-! ## Styles -/

theorem pointedDigits_eq_error_iff (cs : List Char) :
    pointedDigits cs = .error f ↔ cs = [] ∧ f = .noDigits := by
  cases cs with
  | nil => simp [pointedDigits, eq_comm]
  | cons c cs => simp [pointedDigits]

theorem exponentialChars_eq_error_iff (hnan : x.isNaN = false) (precision : Nat) :
    exponentialChars x precision = .error f ↔
      precision ≠ 0 ∧ x.isInf = true ∧ f = .noDigits := by
  unfold exponentialChars
  dsimp only
  split
  · rename_i hprecision
    exact iff_of_false (fun h => by cases h) fun h => h.1 hprecision
  · rename_i hprecision
    rw [bind_pure_eq_error_iff, pointedDigits_eq_error_iff, digitChars, List.map_eq_nil_iff,
      digits_significantDigits_eq_nil_iff hnan (Nat.succ_pos precision)]
    exact (and_iff_right hprecision).symm

theorem precisionChars_ne_error (hnan : x.isNaN = false) (precision : Nat) :
    precisionChars x precision ≠ .error f := by
  unfold precisionChars
  dsimp only
  split
  · rename_i hlarge
    split
    · exact fun h => by cases h
    · rw [Ne, bind_eq_error_iff, pointedDigits_eq_error_iff, digitChars, List.map_eq_nil_iff,
        digits_significantDigits_eq_nil_iff hnan (by omega)]
      rintro (⟨hinf, -⟩ | ⟨cs, -, h⟩)
      · rw [significantDigits_of_isInf hinf] at hlarge
        dsimp only at hlarge
        omega
      · cases h
  · split <;> exact fun h => by cases h

theorem NumberStyle.chars_eq_error_iff (style : NumberStyle) (hnan : x.isNaN = false) (precision : Nat) :
    style.chars x precision = .error f ↔
      style = .exponent ∧ precision ≠ 0 ∧ x.isInf = true ∧ f = .noDigits := by
  cases style with
  | exponent =>
    rw [chars, bind_pure_eq_error_iff, exponentialChars_eq_error_iff hnan]
    exact (and_iff_right rfl).symm
  | general =>
    rw [chars, bind_pure_eq_error_iff]
    exact iff_of_false (precisionChars_ne_error hnan precision) fun h => by cases h.1
  | _ => exact iff_of_false (fun h => by cases h) fun h => by cases h.1

/-- The digits in front of the point, in a text that a style gives. A text in a base has no others. -/
def NumberStyle.whole (style : NumberStyle) (text : List Char) : List Char :=
  if style.splitsSuffix then text.takeWhile Char.isDigit else text

/-! ## Formats -/

namespace NumberFormat

def scaled (fmt : NumberFormat) (x : Float) : Float :=
  match fmt.unit with
  | some (k, _) => k * x
  | none => x

/-- An infinite number is to be written with an exponent, and a point in its digits. -/
structure CutOff (fmt : NumberFormat) (x : Float) : Prop where
  style : fmt.style = .exponent
  precision : fmt.precision ≠ 0
  infinite : (fmt.scaled x).isInf = true

theorem cutOff_iff (fmt : NumberFormat) (x : Float) :
    fmt.CutOff x ↔ fmt.style = .exponent ∧ fmt.precision ≠ 0 ∧ (fmt.scaled x).isInf = true :=
  ⟨fun ⟨hstyle, hprecision, hinf⟩ => ⟨hstyle, hprecision, hinf⟩,
    fun ⟨hstyle, hprecision, hinf⟩ => ⟨hstyle, hprecision, hinf⟩⟩

/-- The pieces of a number that the formatter of the type writes as `written`. -/
def cut (fmt : NumberFormat) (x : Float) (written : List Char × Int) : Pieces :=
  let text := if fmt.spec.trim then trimInsignificant written.1 else written.1
  let negative := (x < 0 || (x == 0 && signBit x)) && !(readsZero text && fmt.spec.sign != .plus)
  let unit := if fmt.style == .thousands then (thousandsPrefix written.2).toList else []
  let close := if negative && fmt.spec.sign == .parens then [')'] else []
  { lead := signChars fmt.spec.sign negative ++ fmt.lead.toList
    body := fmt.style.whole text
    tail := text.drop (fmt.style.whole text).length ++ (unit ++ fmt.tail.toList ++ close) }

theorem pieces_eq (fmt : NumberFormat) (x : Float) :
    fmt.pieces x =
      if fmt.style = .character then
        .ok { lead := fmt.lead.toList, body := [], tail := numberChars x ++ fmt.tail.toList }
      else (if x.isNaN then .ok ("NaN".toList, 0) else fmt.style.chars x.abs fmt.precision).map (fmt.cut x) := by
  unfold pieces
  split
  · rename_i hcharacter
    rw [if_pos (eq_of_beq hcharacter)]
    rfl
  · rename_i hcharacter
    extract_lets finish
    have hfinish (written : List Char × Int) : finish written = .ok (fmt.cut x written) := by
      have hdrop (text : List Char) :
          text.dropWhile Char.isDigit = text.drop (text.takeWhile Char.isDigit).length := by
        have h : (text.takeWhile Char.isDigit ++ text.dropWhile Char.isDigit).drop
            (text.takeWhile Char.isDigit).length = text.dropWhile Char.isDigit := List.drop_left
        rw [List.takeWhile_append_dropWhile] at h
        exact h.symm
      dsimp only [finish, cut, NumberStyle.whole]
      by_cases hsuffix : fmt.style.splitsSuffix = true
      · simp only [if_pos hsuffix, hdrop]
        rfl
      · simp only [if_neg hsuffix, List.drop_length, List.nil_append]
        rfl
    rw [if_neg (fun h => hcharacter (beq_iff_eq.2 h)), ← apply_ite (· >>= finish), funext hfinish]
    split
    · rfl
    · cases fmt.style.chars x.abs fmt.precision <;> rfl

theorem pieces_eq_error_iff (fmt : NumberFormat) (x : Float) :
    fmt.pieces x = .error f ↔
      fmt.style = .exponent ∧ fmt.precision ≠ 0 ∧ x.isInf = true ∧ f = .noDigits := by
  rw [pieces_eq]
  split
  · rename_i hcharacter
    refine iff_of_false (fun h => by cases h) fun h => ?_
    rw [h.1] at hcharacter
    cases hcharacter
  · rw [map_eq_error_iff]
    split
    · rename_i hnan
      refine iff_of_false (fun h => by cases h) fun h => ?_
      rw [isInf_of_isNaN hnan] at h
      cases h.2.2.1
    · rename_i hnan
      have hnan := Bool.eq_false_iff.2 hnan
      rw [NumberStyle.chars_eq_error_iff _ (isNaN_abs hnan), isInf_abs hnan]

/-- **Formatted numbers.** Every number has a text in every format, but for infinite ones that are to be
written with an exponent. -/
theorem format_eq_error_iff (fmt : NumberFormat) (x : Float) :
    fmt.format x = .error f ↔ fmt.CutOff x ∧ f = .noDigits := by
  rw [cutOff_iff, and_assoc, and_assoc, scaled, format]
  cases fmt.unit <;> dsimp only <;>
    rw [map_eq_error_iff, formatUnscaled, map_eq_error_iff, pieces_eq_error_iff]

theorem style_ofSpec_eq_exponent_iff (spec : FormatSpec) :
    (ofSpec spec).style = .exponent ↔ spec.kind = some 'e' := by
  have hstyle {kind : Option Char} {style : NumberStyle} (h : kind.bind NumberStyle.ofChar? = some style) :
      style = .exponent ↔ kind = some 'e' := by
    cases kind with
    | none => cases h
    | some c =>
      have h : NumberStyle.ofChar? c = some style := h
      unfold NumberStyle.ofChar? at h
      split at h <;> cases h <;> decide
  unfold ofSpec
  -- the letter n and unknown letters stand for other styles
  split
  rename_i style comma trim precision hresolved
  show style = .exponent ↔ _
  split at hresolved
  · rename_i hkind
    rw [hkind]
    cases hresolved
    decide
  · split at hresolved
    · rename_i kind hnot style' hstyle'
      cases hresolved
      exact hstyle hstyle'
    · rename_i kind hnot hnone
      cases hresolved
      refine iff_of_false (fun h => by cases h) fun h => ?_
      rw [h] at hnone
      cases hnone

theorem cutOff_ofSpec_iff (spec : FormatSpec) (x : Float) :
    (ofSpec spec).CutOff x ↔ spec.kind = some 'e' ∧ spec.precision ≠ some 0 ∧ x.isInf = true := by
  rw [cutOff_iff, style_ofSpec_eq_exponent_iff]
  refine and_congr_right fun hkind => and_congr_left' (not_congr ?_)
  have hprecision : (ofSpec spec).precision = (spec.precision.map fun p => min p 20).getD 6 := by
    unfold ofSpec
    rw [hkind]
    cases spec.precision <;> rfl
  rw [hprecision]
  cases spec.precision with
  | none => decide
  | some p => simp

theorem not_cutOff_withThousands (spec : FormatSpec) (reference x : Float) :
    ¬ (withThousands spec reference).CutOff x := fun h => by
  cases h.style

theorem exists_format_iff (fmt : NumberFormat) (x : Float) :
    (∃ text, fmt.format x = .ok text) ↔ ¬ fmt.CutOff x := by
  cases h : fmt.format x with
  | ok text =>
    refine iff_of_true ⟨text, rfl⟩ fun hcut => ?_
    cases h.symm.trans ((format_eq_error_iff fmt x).2 ⟨hcut, rfl⟩)
  | error f =>
    exact iff_of_false (fun ⟨_, h⟩ => by cases h) fun hcut => hcut ((format_eq_error_iff fmt x).1 h).1

end NumberFormat

end ChartTemplate
