import ChartTemplate.Proofs.Json.Reading
import ChartTemplate.Proofs.Numeric.Integers
import ChartTemplate.Template.Render

/-!
# Results of nested calls

The result of a helper call reaches the call around it as a JSON document (`Value.passed`). That
document has neither instants nor numbers that are not finite: the call around it receives the text of
an instant, null, and zero for negative zero. `callHelper_passed` : which results keep their number, text
and truth value, over all helpers and arguments.
-/

namespace ChartTemplate

open Float.Model (UnpackedFloat)

/-! ## Numbers -/

section

variable {x : Float}

theorem isInf_of_not_finite (h : x.isFinite = false) : x.isInf = !x.isNaN := by
  have hfinite : x.toModel.unpack.isFinite = false := h
  show x.toModel.unpack.isInf = !x.toModel.unpack.isNaN
  cases hu : x.toModel.unpack with
  | notANumber | infinity s => rfl
  | zero s | finite s m e hm => rw [hu] at hfinite; cases hfinite

theorem not_beq_zero_of_not_finite (h : x.isFinite = false) : (x == 0) = false := by
  have hfinite : x.toModel.unpack.isFinite = false := h
  show (x.toModel.unpack.compare (.zero .positive) == some .eq) = false
  cases hu : x.toModel.unpack with
  | notANumber => rfl
  | infinity s => cases s <;> rfl
  | zero s => rw [hu] at hfinite; cases hfinite
  | finite s m e hm => rw [hu] at hfinite; cases hfinite

end

/-! ## Texts of instants -/

section

open Json.Read (Digits digits_append Digits.dropWhile_append)

theorem isBlank_of_isDigit {c : Char} (h : c.isDigit = true) : isBlank c = false :=
  (Json.Read.Begins.not_blank (.inr h))

theorem trimChars_of_not_blank {cs : List Char} (h : ∀ c ∈ cs, isBlank c = false) : trimChars cs = cs := by
  have hleft {cs : List Char} (h : ∀ c ∈ cs, isBlank c = false) : cs.dropWhile isBlank = cs := by
    cases cs with
    | nil => rfl
    | cons c r => exact List.dropWhile_cons_of_neg (by simp [h c List.mem_cons_self])
  rw [trimChars, trimLeft, hleft h, trimRight, hleft fun c hc => h c (List.mem_reverse.mp hc),
    List.reverse_reverse]

theorem digits_paddedNat (width n : ℕ) : Digits (paddedNat width n) :=
  digits_append (Json.digits_zeros _) (Json.digits_natChars n)

theorem paddedNat_ne_nil (width n : ℕ) : paddedNat width n ≠ [] :=
  List.append_ne_nil_of_right_ne_nil _ (Json.natChars_ne_nil n)

theorem toLower_of_isDigit {c : Char} (h : c.isDigit = true) : c.toLower ≠ 'i' ∧ c.toLower ≠ 'n' := by
  obtain ⟨hlow, hhigh⟩ := Json.Read.isDigit_toNat h
  have hall : ∀ n < 10, (digitChar n).toLower ≠ 'i' ∧ (digitChar n).toLower ≠ 'n' := by decide
  have hchar : digitChar (c.toNat - 48) = c := by
    rw [digitChar, show 48 + (c.toNat - 48) = c.toNat by omega, Char.ofNat_toNat]
  rw [← hchar]
  exact hall _ (by omega)

theorem readMagnitude?_hyphen {ds : List Char} (hne : ds ≠ []) (hds : Digits ds) (r : List Char) :
    readMagnitude? (ds ++ '-' :: r) = none := by
  obtain ⟨d, ds, rfl⟩ := List.exists_cons_of_ne_nil hne
  have hlower := toLower_of_isDigit (hds d List.mem_cons_self)
  have hname (c : Char) (cs : List Char) (hc : c = 'i' ∨ c = 'n') :
      (((d :: ds) ++ '-' :: r).map Char.toLower == c :: cs) = false := by
    rw [List.cons_append, List.map_cons]
    rcases hc with rfl | rfl <;> simp [hlower]
  have hwhole : ((d :: ds) ++ '-' :: r).takeWhile Char.isDigit = d :: ds := by
    rw [List.takeWhile_append_of_pos hds]
    simp
  have hrest : ((d :: ds) ++ '-' :: r).dropWhile Char.isDigit = '-' :: r :=
    hds.dropWhile_append fun c r h => by cases h; rfl
  unfold readMagnitude?
  simp only [show "inf".toList = ['i', 'n', 'f'] from rfl,
    show "infinity".toList = ['i', 'n', 'f', 'i', 'n', 'i', 't', 'y'] from rfl,
    show "nan".toList = ['n', 'a', 'n'] from rfl, hname _ _ (.inl rfl), hname _ _ (.inr rfl)]
  unfold readUnsigned?
  simp only [hwhole, hrest]
  rfl

theorem exists_isoChars (t : Instant) : ∃ r, t.isoChars = Instant.yearChars t.date.year ++ '-' :: r := by
  simp only [Instant.isoChars, List.append_assoc, List.cons_append]
  exact ⟨_, rfl⟩

theorem yearChars_digits (y : ℤ) : ∃ ds, ds ≠ [] ∧ Digits ds ∧
    (Instant.yearChars y = ds ∨ Instant.yearChars y = '-' :: ds ∨ Instant.yearChars y = '+' :: ds) := by
  unfold Instant.yearChars
  split
  · exact ⟨_, paddedNat_ne_nil 4 _, digits_paddedNat 4 _, .inl rfl⟩
  · refine ⟨_, paddedNat_ne_nil 4 y.natAbs, digits_paddedNat 4 _, .inr ?_⟩
    split
    · exact .inl rfl
    · exact .inr rfl

theorem isBlank_isoChars (t : Instant) : ∀ c ∈ t.isoChars, isBlank c = false := by
  have hpadded (width n : ℕ) : ∀ c ∈ paddedNat width n, isBlank c = false := fun c hc =>
    isBlank_of_isDigit (digits_paddedNat width n c hc)
  have hyear (y : ℤ) : ∀ c ∈ Instant.yearChars y, isBlank c = false := by
    unfold Instant.yearChars
    split
    · exact hpadded 4 _
    · rw [List.forall_mem_cons]
      exact ⟨by split <;> rfl, hpadded 4 _⟩
  simp only [Instant.isoChars, List.forall_mem_append, List.forall_mem_cons]
  exact ⟨⟨⟨⟨⟨⟨⟨hyear _, rfl, hpadded _ _⟩, rfl, hpadded _ _⟩, rfl, hpadded _ _⟩, rfl, hpadded _ _⟩, rfl,
    hpadded _ _⟩, rfl, hpadded _ _⟩, rfl, fun _ h => absurd h List.not_mem_nil⟩

theorem isoText_ne_empty (t : Instant) : t.isoText.isEmpty = false := by
  obtain ⟨r, hr⟩ := exists_isoChars t
  rw [Instant.isoText, String.isEmpty_eq_false_iff, Ne, String.ofList_eq_empty_iff, hr]
  exact List.append_ne_nil_of_right_ne_nil _ (List.cons_ne_nil _ _)

theorem readFloat?_isoText (t : Instant) : readFloat? t.isoText = none := by
  obtain ⟨r, hr⟩ := exists_isoChars t
  obtain ⟨ds, hne, hds, hyear⟩ := yearChars_digits t.date.year
  have hread := readMagnitude?_hyphen hne hds r
  rw [readFloat?, Instant.isoText, String.toList_ofList, hr]
  rcases hyear with hyear | hyear | hyear <;> rw [hyear]
  · obtain ⟨d, ds, rfl⟩ := List.exists_cons_of_ne_nil hne
    have hd := hds d List.mem_cons_self
    split
    · rename_i h
      cases (List.cons.inj h).1
      cases hd
    · rename_i h
      cases (List.cons.inj h).1
      cases hd
    · exact hread
  · exact congrArg (Option.map _) hread
  · exact hread

theorem numberOfText_isoText (t : Instant) : Value.numberOfText t.isoText = notANumber := by
  have htrim : trim t.isoText = t.isoText := by
    rw [trim, Instant.isoText, String.toList_ofList, trimChars_of_not_blank (isBlank_isoChars t)]
  rw [Value.numberOfText, htrim, isoText_ne_empty, readFloat?_isoText]
  rfl

end

namespace Value

/-- What a helper call receives for a result of a call among its arguments. -/
def passed (v : Value) : Value :=
  ofJson v.toJson

theorem passed_number_of_finite {x : Float} (h : x.isFinite = true) (hzero : x ≠ negativeZero) :
    passed (number x) = number x := by
  rw [passed, toJson, Json.ofFloat]
  split
  · rename_i hsmall
    rw [Bool.and_eq_true, decide_eq_true_iff] at hsmall
    rw [ofJson, JsonNumber.toFloat,
      ofInt_truncInt hsmall.1 (whole_lt_of_abs_lt hsmall.1 hsmall.2) hzero]
  · rfl

theorem passed_negativeZero : passed (number negativeZero) = number 0 := by
  rw [passed, toJson, Json.ofFloat, if_pos (by decide +kernel),
    show truncInt negativeZero = 0 by decide +kernel]
  rfl

theorem toJson_number_of_not_finite {x : Float} (h : x.isFinite = false) :
    (number x).toJson = .null := by
  have hfract : ¬ (fract x == 0) = true := fun hfract => by
    rw [isFinite_of_fract hfract] at h
    cases h
  rw [toJson, Json.ofFloat, Bool.eq_false_iff.mpr hfract, h]
  rfl

theorem passed_number_of_not_finite {x : Float} (h : x.isFinite = false) :
    passed (number x) = null := by
  rw [passed, toJson_number_of_not_finite h]
  rfl

theorem ofItems_toItems (vs : List Value) : ofItems (toItems vs) = vs.map passed := by
  induction vs with
  | nil => rfl
  | cons v vs ih =>
    rw [toItems, ofItems, ih]
    rfl

theorem passed_array (items : List Value) : passed (array items) = array (items.map passed) := by
  rw [passed, toJson, ofJson, ofItems_toItems]

theorem passed_date (t : Instant) : passed (date t) = text t.isoText := rfl

theorem ofMembers_toMembers (ms : List (String × Value)) :
    ofMembers (toMembers ms) = ms.map fun m => (m.1, m.2.passed) := by
  induction ms with
  | nil => rfl
  | cons m ms ih =>
    obtain ⟨k, v⟩ := m
    rw [toMembers, ofMembers, ih]
    rfl

theorem passed_object (ms : List (String × Value)) :
    passed (object ms) = object (ms.map fun m => (m.1, m.2.passed)) := by
  rw [passed, toJson, ofJson, ofMembers_toMembers]

/-! ## Values that are documents -/

mutual

/-- Whether the value is what a document is read as: nothing in it is missing, an instant, or a number
that is negative zero or not finite. -/
def isDocument : Value → Bool
  | undefined | date _ => false
  | number x => x.isFinite && decide (x ≠ negativeZero)
  | array items => areDocuments items
  | object members => memberDocuments members
  | _ => true

/-- Whether all items are what documents are read as. -/
def areDocuments : List Value → Bool
  | [] => true
  | v :: vs => isDocument v && areDocuments vs

def memberDocuments : List (String × Value) → Bool
  | [] => true
  | (_, v) :: ms => isDocument v && memberDocuments ms

end

theorem passed_number_eq_iff {x : Float} :
    passed (number x) = number x ↔ x.isFinite = true ∧ x ≠ negativeZero := by
  cases h : x.isFinite with
  | false =>
    rw [passed_number_of_not_finite h]
    simp
  | true =>
    by_cases hzero : x = negativeZero
    · rw [hzero, passed_negativeZero]
      have hne : (0 : Float) ≠ negativeZero := by decide
      simp [hne]
    · simp [passed_number_of_finite h hzero, hzero]

mutual

/-- **Values that are documents** are received as they are, and no others. -/
theorem passed_eq_self_iff : ∀ v : Value, v.passed = v ↔ v.isDocument = true
  | undefined => by simp [passed, toJson, ofJson, isDocument]
  | null | bool _ | text _ => iff_of_true rfl rfl
  | date t => by simp [passed_date, isDocument]
  | number x => by rw [passed_number_eq_iff, isDocument, Bool.and_eq_true, decide_eq_true_iff]
  | array items => by rw [passed_array, array.injEq, map_passed_eq_self_iff, isDocument]
  | object ms => by rw [passed_object, object.injEq, map_members_eq_self_iff, isDocument]

theorem map_passed_eq_self_iff : ∀ vs : List Value, vs.map passed = vs ↔ areDocuments vs = true
  | [] => iff_of_true rfl rfl
  | v :: vs => by
    rw [List.map_cons, List.cons.injEq, passed_eq_self_iff v, map_passed_eq_self_iff vs, areDocuments,
      Bool.and_eq_true]

theorem map_members_eq_self_iff : ∀ ms : List (String × Value),
    (ms.map fun m => (m.1, m.2.passed)) = ms ↔ memberDocuments ms = true
  | [] => iff_of_true rfl rfl
  | (k, v) :: ms => by
    rw [List.map_cons, List.cons.injEq, Prod.mk.injEq, passed_eq_self_iff v, map_members_eq_self_iff ms,
      memberDocuments, Bool.and_eq_true]
    simp

end

/-! ## Texts -/

mutual

/-- Whether no number that is reached through arrays alone is infinite or NaN. -/
def keepsText : Value → Bool
  | number x => x.isFinite
  | array items => keepTexts items
  | _ => true

def keepTexts : List Value → Bool
  | [] => true
  | v :: vs => keepsText v && keepTexts vs

end

theorem numberText_negativeZero : numberText negativeZero = numberText 0 := by decide +kernel

theorem numberText_of_not_finite {x : Float} (h : x.isFinite = false) :
    numberText x = "NaN" ∨ numberText x = "-Infinity" ∨ numberText x = "Infinity" := by
  unfold numberText numberChars
  rw [isInf_of_not_finite h]
  cases x.isNaN with
  | true => exact .inl rfl
  | false =>
    right
    show String.ofList (if x < 0 then "-Infinity".toList else "Infinity".toList) = _ ∨ _
    split
    · exact .inl rfl
    · exact .inr rfl

theorem toText_passed_number {x : Float} (h : x.isFinite = true) :
    (passed (number x)).toText = numberText x := by
  by_cases hzero : x = negativeZero
  · rw [hzero, passed_negativeZero, numberText_negativeZero]
    rfl
  · rw [passed_number_of_finite h hzero]
    rfl

theorem isNullish_passed_number {x : Float} (h : x.isFinite = true) :
    (passed (number x)).isNullish = false := by
  by_cases hzero : x = negativeZero
  · rw [hzero, passed_negativeZero]
    rfl
  · rw [passed_number_of_finite h hzero]
    rfl

theorem itemTexts_eq_map (vs : List Value) : itemTexts vs = vs.map toOutput := by
  induction vs with
  | nil => rfl
  | cons v vs ih =>
    rw [itemTexts, ih]
    rfl

theorem toText_array (items : List Value) :
    (array items).toText = joinTexts "," (items.map toOutput) := by
  rw [toText, itemTexts_eq_map]

theorem length_joinTexts (separator : String) (ss : List String) :
    (joinTexts separator ss).length =
      (ss.map String.length).sum + (ss.length - 1) * separator.length := by
  induction ss with
  | nil => simp [joinTexts]
  | cons s ss ih =>
    cases ss with
    | nil => simp [joinTexts]
    | cons t ss =>
      show (s ++ separator ++ joinTexts separator (t :: ss)).length = _
      rw [String.length_append, String.length_append, ih]
      simp only [List.map_cons, List.sum_cons, List.length_cons, Nat.add_sub_cancel]
      ring

mutual

theorem toOutput_passed (v : Value) :
    if v.keepsText then (passed v).toOutput = v.toOutput
    else (passed v).toOutput.length < v.toOutput.length := by
  cases v with
  | undefined | null | bool b | text s | date t | object ms => rfl
  | number x =>
    rw [keepsText]
    split
    · rename_i h
      rw [toOutput, isNullish_passed_number h, toText_passed_number h]
      rfl
    · rename_i h
      rw [passed_number_of_not_finite (Bool.eq_false_iff.mpr h)]
      show 0 < (numberText x).length
      rcases numberText_of_not_finite (Bool.eq_false_iff.mpr h) with h | h | h <;> rw [h] <;> decide
  | array items =>
    have hitems := outputs_passed items
    show if keepTexts items = true then (passed (array items)).toOutput = (array items).toText
      else (passed (array items)).toOutput.length < (array items).toText.length
    rw [passed_array]
    show if keepTexts items = true then (array (items.map passed)).toText = (array items).toText
      else (array (items.map passed)).toText.length < (array items).toText.length
    rw [toText_array, toText_array, List.map_map]
    split
    · rename_i h
      rw [if_pos h] at hitems
      rw [hitems]
    · rename_i h
      rw [if_neg h] at hitems
      rw [length_joinTexts, length_joinTexts, List.length_map, List.length_map, List.map_map, List.map_map]
      exact Nat.add_lt_add_right hitems _

theorem outputs_passed (vs : List Value) :
    if keepTexts vs then vs.map (toOutput ∘ passed) = vs.map toOutput
    else (vs.map (String.length ∘ toOutput ∘ passed)).sum < (vs.map (String.length ∘ toOutput)).sum := by
  cases vs with
  | nil => rfl
  | cons v vs =>
    have hv := toOutput_passed v
    have hvs := outputs_passed vs
    have hlength (h : vs.map (toOutput ∘ passed) = vs.map toOutput) :
        (vs.map (String.length ∘ toOutput ∘ passed)).sum = (vs.map (String.length ∘ toOutput)).sum := by
      rw [← List.map_map, h, List.map_map]
    rw [keepTexts]
    simp only [List.map_cons, List.sum_cons, Function.comp_apply]
    cases hkeep : v.keepsText <;> cases hkeeps : keepTexts vs <;> rw [hkeep] at hv <;> rw [hkeeps] at hvs
    · exact Nat.add_lt_add hv hvs
    · exact Nat.add_lt_add_of_lt_of_le hv (hlength hvs).le
    · exact Nat.add_lt_add_of_le_of_lt (congrArg String.length hv).le hvs
    · exact congrArg₂ List.cons hv hvs

end

/-- **Texts** of results other than a missing one. -/
theorem toText_passed_iff {v : Value} (hv : v ≠ undefined) :
    (passed v).toText = v.toText ↔ v.keepsText = true := by
  cases v with
  | undefined => exact absurd rfl hv
  | null | bool b | text s | date t | object ms => exact iff_of_true rfl rfl
  | number x =>
    rw [keepsText]
    cases h : x.isFinite with
    | true => exact iff_of_true (toText_passed_number h) rfl
    | false =>
      refine iff_of_false ?_ Bool.false_ne_true
      rw [passed_number_of_not_finite h]
      show "null" ≠ numberText x
      rcases numberText_of_not_finite h with h | h | h <;> rw [h] <;> decide
  | array items =>
    have htext := toOutput_passed (array items)
    have hpassed : (passed (array items)).toOutput = (passed (array items)).toText := by
      rw [passed_array]
      rfl
    rw [hpassed] at htext
    cases h : (array items).keepsText <;> rw [h] at htext
    · exact iff_of_false (fun heq => (heq ▸ htext).ne rfl) Bool.false_ne_true
    · exact iff_of_true htext rfl

/-! ## Truth values and numbers -/

def isInfinite : Value → Bool
  | number x => x.isInf
  | _ => false

/-- **Truth values** of results. -/
theorem isTruthy_passed_iff (v : Value) :
    (passed v).isTruthy = v.isTruthy ↔ v.isInfinite = false := by
  cases v with
  | undefined | null | bool b | text s => exact iff_of_true rfl rfl
  | date t => exact iff_of_true (by rw [passed_date, isTruthy, isoText_ne_empty]; rfl) rfl
  | object ms => exact iff_of_true rfl rfl
  | array items =>
    refine iff_of_true ?_ rfl
    rw [passed_array, isTruthy, isTruthy, List.isEmpty_map]
  | number x =>
    rw [isInfinite]
    cases h : x.isFinite with
    | true =>
      refine iff_of_true ?_ (isInf_of_isFinite h)
      by_cases hzero : x = negativeZero
      · rw [hzero, passed_negativeZero]
        decide +kernel
      · rw [passed_number_of_finite h hzero]
    | false =>
      rw [passed_number_of_not_finite h, isTruthy, isTruthy, not_beq_zero_of_not_finite h,
        isInf_of_not_finite h]
      cases x.isNaN <;> decide

/-- Whether the value keeps its number: the only item of the only item and so on of arrays is neither
an instant nor missing nor a number that is negative zero or not finite. -/
def keepsNumber : Value → Bool
  | undefined | date _ => false
  | number x => x.isFinite && decide (x ≠ negativeZero)
  | array [v] => keepsNumber v
  | _ => true

/-- **Numbers** of results. -/
theorem toNumber_passed_iff : ∀ v : Value, (passed v).toNumber = v.toNumber ↔ v.keepsNumber = true
  | undefined => iff_of_false (by decide) Bool.false_ne_true
  | null | bool _ | text _ => iff_of_true rfl rfl
  | object _ => iff_of_true rfl rfl
  | date t => by
    refine iff_of_false (fun heq => ?_) Bool.false_ne_true
    have hnumber := isNaN_ofInt t.millis
    rw [passed_date, toNumber, numberOfText_isoText, toNumber] at heq
    rw [← heq] at hnumber
    revert hnumber
    decide
  | number x => by
    rw [keepsNumber, Bool.and_eq_true, decide_eq_true_iff]
    cases h : x.isFinite with
    | false =>
      refine iff_of_false (fun heq => ?_) (fun hkeep => Bool.false_ne_true hkeep.1)
      rw [passed_number_of_not_finite h] at heq
      cases (show 0 = x from heq)
      revert h
      decide
    | true =>
      by_cases hzero : x = negativeZero
      · rw [hzero, passed_negativeZero]
        exact iff_of_false (by decide) fun hkeep => hkeep.2 rfl
      · rw [passed_number_of_finite h hzero]
        exact iff_of_true rfl ⟨rfl, hzero⟩
  | array [] => iff_of_true rfl rfl
  | array [v] => by
    rw [passed_array]
    exact toNumber_passed_iff v
  | array (_ :: _ :: _) => by
    rw [passed_array]
    exact iff_of_true rfl rfl

end Value

/-! ## Nested calls -/

namespace Rendering

/-- The argument that a helper is called with. -/
def received (a : Option Json) : Value :=
  (a.map Value.ofJson).getD .undefined

section

variable {σ : Type} [HostServices σ] {table : Table} {zone : TimeZone} {h : Helper}
  {args : List (Option Json)} {s s' : HelperState σ} {v : Value} (defined : Entries Template)

theorem callHelper_eq
    (hcall : h.call table s (args.map received) zone = (pure (s', v) : Checked HelperError _))
    (hv : v ≠ .undefined) :
    ((callHelper h args).calls defined).run table zone s = .ok (.ok (some v.toJson, defined), s') := by
  show (CallTree.call h (args.map received) _).run table zone s = _
  rw [CallTree.run, hcall]
  cases v with
  | undefined => exact absurd rfl hv
  | _ => rfl

/-- **Results of nested calls.** For every helper call with a result, the call around it receives a value
that has the same text, truth value and number as the result exactly if: no number reached through arrays
alone is infinite or NaN; the result is no infinite number; the result, or the only item of the arrays
that it is nested in, is no instant, and no number that is negative zero or not finite. -/
theorem callHelper_passed
    (hcall : h.call table s (args.map received) zone = (pure (s', v) : Checked HelperError _))
    (hv : v ≠ .undefined) :
    ∃ j, ((callHelper h args).calls defined).run table zone s = .ok (.ok (some j, defined), s') ∧
      ((received (some j)).toText = v.toText ↔ v.keepsText = true) ∧
      ((received (some j)).isTruthy = v.isTruthy ↔ v.isInfinite = false) ∧
      ((received (some j)).toNumber = v.toNumber ↔ v.keepsNumber = true) :=
  ⟨v.toJson, callHelper_eq defined hcall hv, Value.toText_passed_iff hv, Value.isTruthy_passed_iff v,
    Value.toNumber_passed_iff v⟩

end

/-- An array with a missing item. -/
theorem callHelper_passed_array :
    let s : HelperState := ⟨.empty, .ofColors []⟩
    Helper.array.call .empty s ([none, some (.str "a")].map received) =
        (pure (s, .array [.undefined, .text "a"]) : Checked HelperError _) ∧
      ∃ j, ((callHelper .array [none, some (.str "a")]).calls []).run .empty .utc s =
          .ok (.ok (some j, []), s) ∧
        (received (some j)).toText = ",a" ∧ (received (some j)).isTruthy = true ∧
        (received (some j)).toNumber = notANumber := by
  intro s
  have hcall : Helper.array.call .empty s ([none, some (.str "a")].map received) =
      (pure (s, .array [.undefined, .text "a"]) : Checked HelperError _) := rfl
  obtain ⟨j, hj, htext, htruth, hnumber⟩ := callHelper_passed [] hcall (by simp)
  exact ⟨hcall, j, hj, htext.mpr rfl, htruth.mpr rfl, hnumber.mpr rfl⟩

/-- What is not a number becomes zero, and an instant has no number any more. -/
theorem callHelper_loses_numbers :
    let s : HelperState := ⟨.empty, .ofColors []⟩
    Helper.sub.call .empty s ([some (.str "a"), some (.num (.int 1))].map received) =
        (pure (s, .number notANumber) : Checked HelperError _) ∧
      ((callHelper .sub [some (.str "a"), some (.num (.int 1))]).calls []).run .empty .utc s =
        .ok (.ok (some .null, []), s) ∧
      (received (some .null)).toNumber = 0 ∧ (received (some .null)).toText = "null" ∧
      (Value.number notANumber).toText = "NaN" ∧
      (Value.date ⟨1, 0⟩).toNumber = 1000 ∧
      (received (some (Value.date ⟨1, 0⟩).toJson)).toNumber = notANumber := by
  intro s
  have hsub : (Value.text "a").toNumber - (Value.number (JsonNumber.toFloat (.int 1))).toNumber = notANumber := by
    decide +kernel
  have hcall : Helper.sub.call .empty s ([some (.str "a"), some (.num (.int 1))].map received) =
      (pure (s, .number notANumber) : Checked HelperError _) := by
    rw [← hsub]
    rfl
  have hnull : (Value.number notANumber).toJson = .null :=
    Value.toJson_number_of_not_finite (by decide)
  exact ⟨hcall, hnull ▸ callHelper_eq [] hcall (by simp), rfl, rfl, by decide +kernel, by decide +kernel,
    by decide +kernel⟩

end Rendering

end ChartTemplate
