import ChartTemplate.Proofs.Format.Rounded
import ChartTemplate.Proofs.Format.Trimmed

/-!
# Where the point is placed

A text is read as a decimal numeral in at most one way (`Denotes.unique`). `placed` puts a point among
digits, behind them or in front of them, with zeros in between, and `scientific` puts it after the first
digit and adds an exponent. Both denote the number of the digits and the exponent (`denotes_placed`,
`denotes_scientific`). The layouts of numbers are made of these two, each with its own rule for the choice
between them, and so none of them moves the point (`layouts_denote`).
-/

namespace ChartTemplate

open Json.Read (Digits)

/-! ## Reading numerals -/

section Reading

variable {p : Char → Bool} {ds ds' rest rest' : List Char}

theorem takeWhile_append_of_head? (hds : ∀ c ∈ ds, p c = true) (hrest : ∀ c ∈ rest.head?, p c = false) :
    (ds ++ rest).takeWhile p = ds := by
  rw [List.takeWhile_append_of_pos hds]
  cases rest with
  | nil => simp
  | cons c r => simp [hrest c rfl]

/-- Characters of a kind end where one of another kind follows. -/
theorem append_inj_of_head? (hds : ∀ c ∈ ds, p c = true) (hds' : ∀ c ∈ ds', p c = true)
    (hrest : ∀ c ∈ rest.head?, p c = false) (hrest' : ∀ c ∈ rest'.head?, p c = false)
    (h : ds ++ rest = ds' ++ rest') : ds = ds' ∧ rest = rest' := by
  have htake := congrArg (List.takeWhile p) h
  rw [takeWhile_append_of_head? hds hrest, takeWhile_append_of_head? hds' hrest'] at htake
  subst htake
  exact ⟨rfl, List.append_cancel_left h⟩

theorem digits_append_inj (hds : Digits ds) (hds' : Digits ds')
    (hrest : ∀ c ∈ rest.head?, c.isDigit = false) (hrest' : ∀ c ∈ rest'.head?, c.isDigit = false)
    (h : ds ++ rest = ds' ++ rest') : ds = ds' ∧ rest = rest' :=
  append_inj_of_head? hds hds' hrest hrest' h

theorem Figures.chars_injective : Function.Injective Figures.chars := by
  rintro ⟨cs, _, _⟩ ⟨cs', _, _⟩ h
  obtain rfl : cs = cs' := h
  rfl

theorem Power.chars_injective : Function.Injective Power.chars := by
  rintro ⟨b, f⟩ ⟨b', f'⟩ h
  obtain ⟨hsign, hfigures⟩ := List.cons.inj (List.cons.inj h).2
  obtain rfl := Figures.chars_injective hfigures
  have hneg : b = b' := by
    cases b <;> cases b' <;> first | rfl | cases hsign
  rw [hneg]

namespace DecimalNumeral

theorem head?_tail (n : DecimalNumeral) : ∀ c ∈ n.tail.head?, c = 'e' := by
  unfold tail
  cases n.power with
  | none => simp
  | some p => simp [Power.chars]

theorem head?_fraction_tail (n : DecimalNumeral) :
    ∀ c ∈ (n.fractionPart ++ n.tail).head?, c.isDigit = false := by
  intro c hc
  unfold fractionPart at hc
  cases hfraction : n.fraction with
  | none =>
    rw [hfraction] at hc
    rw [n.head?_tail c hc]
    rfl
  | some f =>
    rw [hfraction] at hc
    obtain rfl : '.' = c := by simpa using hc
    rfl

/-- What follows the whole part says whether there is a fraction, and which. -/
theorem eq_of_fraction_tail {n m : DecimalNumeral} (h : n.fractionPart ++ n.tail = m.fractionPart ++ m.tail) :
    n.fraction = m.fraction ∧ n.tail = m.tail := by
  have hpoint (k : DecimalNumeral) (cs : List Char) : '.' :: cs ≠ k.tail := by
    intro heq
    have := k.head?_tail '.' (by rw [← heq]; rfl)
    simp at this
  have hend (k : DecimalNumeral) : ∀ c ∈ k.tail.head?, c.isDigit = false := by
    intro c hc
    rw [k.head?_tail c hc]
    rfl
  unfold fractionPart at h
  cases hn : n.fraction with
  | none =>
    cases hm : m.fraction with
    | none => exact ⟨rfl, by simpa [hn, hm] using h⟩
    | some g =>
      rw [hn, hm] at h
      exact absurd h.symm (hpoint n _)
  | some f =>
    cases hm : m.fraction with
    | none =>
      rw [hn, hm] at h
      exact absurd h (hpoint m _)
    | some g =>
      rw [hn, hm] at h
      obtain ⟨hfigures, htail⟩ := digits_append_inj f.digits g.digits (hend n) (hend m) (List.cons.inj h).2
      exact ⟨congrArg some (Figures.chars_injective hfigures), htail⟩

theorem chars_injective : Function.Injective chars := by
  intro n m h
  have h : n.whole.chars ++ (n.fractionPart ++ n.tail) = m.whole.chars ++ (m.fractionPart ++ m.tail) := by
    simpa [chars] using h
  obtain ⟨hwhole, hrest⟩ := digits_append_inj n.whole.digits m.whole.digits n.head?_fraction_tail
    m.head?_fraction_tail h
  obtain ⟨hfraction, htail⟩ := eq_of_fraction_tail hrest
  have hpower : n.power = m.power := by
    unfold tail at htail
    cases hn : n.power <;> cases hm : m.power <;> rw [hn, hm] at htail
    · cases htail
    · cases htail
    · exact congrArg some (Power.chars_injective htail)
  obtain ⟨whole, fraction, power⟩ := n
  obtain ⟨whole', fraction', power'⟩ := m
  obtain rfl := Figures.chars_injective hwhole
  obtain rfl : fraction = fraction' := hfraction
  obtain rfl : power = power' := hpower
  rfl

end DecimalNumeral

end Reading

/-- The text is a decimal numeral, and denotes the number. -/
def Denotes (cs : List Char) (v : ℚ) : Prop :=
  ∃ n : DecimalNumeral, n.chars = cs ∧ n.value = v

theorem Denotes.unique {cs : List Char} {v w : ℚ} (hv : Denotes cs v) (hw : Denotes cs w) : v = w := by
  obtain ⟨n, hn, rfl⟩ := hv
  obtain ⟨m, hm, rfl⟩ := hw
  rw [DecimalNumeral.chars_injective (hn.trans hm.symm)]

/-! ## Digits with a point -/

section Point

variable {ds : List Char}

theorem denotes_digits (hne : ds ≠ []) (hds : Digits ds) : Denotes ds (natOfChars ds) := by
  refine ⟨⟨⟨ds, hne, hds⟩, none, none⟩, ?_, ?_⟩
  · simp [DecimalNumeral.chars, DecimalNumeral.fractionPart, DecimalNumeral.tail]
  · simp [DecimalNumeral.value]

theorem denotes_point {whole places : List Char} (hne : whole ≠ []) (hwhole : Digits whole)
    (hne' : places ≠ []) (hplaces : Digits places) :
    Denotes (whole ++ '.' :: places) (natOfChars (whole ++ places) * 10 ^ (-(places.length : ℤ))) := by
  refine ⟨⟨⟨whole, hne, hwhole⟩, some ⟨places, hne', hplaces⟩, none⟩, ?_, ?_⟩
  · simp [DecimalNumeral.chars, DecimalNumeral.fractionPart, DecimalNumeral.tail]
  · simp [DecimalNumeral.value]

/-- Digits with a point at a place counted from their beginning, and zeros up to it. -/
def placed (ds : List Char) (point : ℤ) : List Char :=
  if (ds.length : ℤ) ≤ point then ds ++ zeros (point - ds.length).toNat
  else if 0 < point then ds.take point.toNat ++ '.' :: ds.drop point.toNat
  else '0' :: '.' :: zeros (-point).toNat ++ ds

/-- **A point in its place**: behind the digits, among them or in front of them. -/
theorem denotes_placed (hne : ds ≠ []) (hds : Digits ds) (point : ℤ) :
    Denotes (placed ds point) (natOfChars ds * 10 ^ (point - ds.length)) := by
  have hlength : 0 < ds.length := List.length_pos_iff.2 hne
  unfold placed
  split_ifs with hbehind hamong
  · obtain ⟨k, hk⟩ : ∃ k : ℕ, point - ds.length = k := ⟨(point - ds.length).toNat, by omega⟩
    have hdigits := denotes_digits (show ds ++ zeros k ≠ [] by simp [hne])
      (Json.Read.digits_append hds (Json.digits_zeros k))
    rw [natOfChars_append_zeros] at hdigits
    rw [hk, Int.toNat_natCast, zpow_natCast]
    exact_mod_cast hdigits
  · obtain ⟨k, rfl⟩ : ∃ k : ℕ, point = k := ⟨point.toNat, by omega⟩
    rw [Int.toNat_natCast]
    have hpoint := denotes_point (show ds.take k ≠ [] by rw [← List.length_pos_iff, List.length_take]; omega)
      (fun c hc => hds c (List.mem_of_mem_take hc))
      (show ds.drop k ≠ [] by rw [← List.length_pos_iff, List.length_drop]; omega)
      (fun c hc => hds c (List.mem_of_mem_drop hc))
    rw [List.take_append_drop, List.length_drop] at hpoint
    rwa [show (k : ℤ) - ds.length = -((ds.length - k : ℕ) : ℤ) by omega]
  · have hpoint := denotes_point (List.cons_ne_nil '0' []) (by simp [Digits])
      (show zeros (-point).toNat ++ ds ≠ [] by simp [hne])
      (Json.Read.digits_append (Json.digits_zeros _) hds)
    rw [show ['0'] ++ (zeros (-point).toNat ++ ds) = zeros ((-point).toNat + 1) ++ ds from rfl,
      natOfChars_zeros_append] at hpoint
    have hplaces : point - ds.length = -((zeros (-point).toNat ++ ds).length : ℤ) := by
      simp only [zeros, List.length_append, List.length_replicate]
      omega
    rw [hplaces]
    exact hpoint

end Point

/-! ## Exponents -/

section Exponents

variable {ds : List Char}

/-- Digits with a point after the first, and an exponent. -/
def scientific (ds : List Char) (e : ℤ) : List Char :=
  pointAfterFirst ds ++ exponentChars e

/-- The exponent of a numeral. -/
def powerOf (e : ℤ) : Power :=
  ⟨decide (e < 0), ⟨natChars e.natAbs, Json.natChars_ne_nil _, Json.digits_natChars _⟩⟩

theorem chars_powerOf (e : ℤ) : (powerOf e).chars = exponentChars e := by
  simp [powerOf, Power.chars, exponentChars]

theorem value_powerOf (e : ℤ) : (powerOf e).value = e := by
  simp only [powerOf, Power.value, natOfChars_natChars, decide_eq_true_eq]
  split_ifs <;> omega

/-- **A point after the first digit**, and an exponent for it. -/
theorem denotes_scientific (hne : ds ≠ []) (hds : Digits ds) (e : ℤ) :
    Denotes (scientific ds e) (natOfChars ds * 10 ^ (e + 1 - ds.length)) := by
  cases ds with
  | nil => exact absurd rfl hne
  | cons c cs =>
    obtain ⟨hc, hcs⟩ := List.forall_mem_cons.1 hds
    have hfirst : Digits [c] := by simpa [Digits] using hc
    cases hrest : cs with
    | nil =>
      refine ⟨⟨⟨[c], by simp, hfirst⟩, none, some (powerOf e)⟩, ?_, ?_⟩
      · simp [DecimalNumeral.chars, DecimalNumeral.fractionPart, DecimalNumeral.tail, chars_powerOf,
          scientific, pointAfterFirst]
      · simp [DecimalNumeral.value, value_powerOf]
    | cons d ds =>
      rw [hrest] at hcs
      refine ⟨⟨⟨[c], by simp, hfirst⟩, some ⟨d :: ds, by simp, hcs⟩, some (powerOf e)⟩, ?_, ?_⟩
      · simp [DecimalNumeral.chars, DecimalNumeral.fractionPart, DecimalNumeral.tail, chars_powerOf,
          scientific, pointAfterFirst]
      · simp only [DecimalNumeral.value, Option.map_some, Option.getD_some, value_powerOf,
          List.singleton_append, List.length_cons]
        congr 2
        push_cast
        ring

theorem mark_mem_scientific (ds : List Char) (e : ℤ) : 'e' ∈ scientific ds e := by
  simp [scientific, exponentChars]

theorem mark_not_mem (hds : Digits ds) : 'e' ∉ ds := fun hmem => by cases hds _ hmem

theorem mark_not_mem_placed (hds : Digits ds) (point : ℤ) : 'e' ∉ placed ds point := by
  have hzeros (n : ℕ) : 'e' ∉ zeros n := mark_not_mem (Json.digits_zeros n)
  have htake (n : ℕ) : 'e' ∉ ds.take n := fun h => mark_not_mem hds (List.mem_of_mem_take h)
  have hdrop (n : ℕ) : 'e' ∉ ds.drop n := fun h => mark_not_mem hds (List.mem_of_mem_drop h)
  unfold placed
  split_ifs
  · simp [mark_not_mem hds, hzeros]
  · simp [htake, hdrop]
  · simp [mark_not_mem hds, hzeros]

end Exponents

/-! ## Layouts -/

namespace Decimal

variable {d : Decimal}

theorem IsExpansion.digits (h : d.IsExpansion) : Digits (digitChars d.digits) :=
  Json.digits_digitChars h.lt_ten

theorem IsExpansion.chars_ne_nil (h : d.IsExpansion) : digitChars d.digits ≠ [] := by
  simpa [digitChars] using h.ne_nil

theorem IsExpansion.value_eq (h : d.IsExpansion) :
    d.value = natOfChars (digitChars d.digits) * 10 ^ (d.exponent + 1 - (digitChars d.digits).length) := by
  rw [value, natOfChars_digitChars h.lt_ten, digitChars, List.length_map]

theorem IsExpansion.denotes_placed_at (h : d.IsExpansion) (point : ℤ) :
    Denotes (placed (digitChars d.digits) point) (d.value * 10 ^ (point - 1 - d.exponent)) := by
  have hpoint := ChartTemplate.denotes_placed h.chars_ne_nil h.digits point
  rwa [show point - (digitChars d.digits).length =
      d.exponent + 1 - (digitChars d.digits).length + (point - 1 - d.exponent) by ring,
    zpow_add₀ (by norm_num), ← mul_assoc, ← h.value_eq] at hpoint

theorem IsExpansion.denotes_placed (h : d.IsExpansion) :
    Denotes (placed (digitChars d.digits) (d.exponent + 1)) d.value := by
  simpa using h.denotes_placed_at (d.exponent + 1)

theorem IsExpansion.denotes_scientific (h : d.IsExpansion) :
    Denotes (scientific (digitChars d.digits) d.exponent) d.value := by
  rw [h.value_eq]
  exact ChartTemplate.denotes_scientific h.chars_ne_nil h.digits _

theorem plainChars_eq (d : Decimal) :
    d.plainChars =
      if d.exponent ≤ -7 ∨ 21 ≤ d.exponent then scientific (digitChars d.digits) d.exponent
      else placed (digitChars d.digits) (d.exponent + 1) := by
  unfold plainChars placed scientific exponentChars
  dsimp only
  split_ifs <;> first | rfl | omega

theorem IsExpansion.positionalChars_eq (h : d.IsExpansion) :
    d.positionalChars = placed (digitChars d.digits) (d.exponent + 1) := by
  have hlength : 0 < (digitChars d.digits).length := List.length_pos_iff.2 h.chars_ne_nil
  unfold positionalChars placed
  dsimp only
  generalize digitChars d.digits = ds at hlength ⊢
  split_ifs with hneg hbehind hamong hbehind' <;> try omega
  · rw [show (-d.exponent - 1).toNat = (-(d.exponent + 1)).toNat by omega]
  · rw [show d.exponent.toNat + 1 = (d.exponent + 1).toNat by omega]
  · rw [show d.exponent.toNat + 1 - ds.length = (d.exponent + 1 - ds.length).toNat by omega]

end Decimal

/-! ## Numbers -/

/-- A minus sign in front of the text of a number below zero. -/
def signed (x : Float) (cs : List Char) : List Char :=
  if x < 0 then '-' :: cs else cs

theorem mantissa_bind {α : Type} {ds : List Char} {single : Prop} [Decidable single] (hne : ds ≠ [])
    (hsingle : single ↔ ds.length = 1) (k : List Char → Except Fault α) :
    (if single then pure ds >>= k else pointedDigits ds >>= k) = k (pointAfterFirst ds) := by
  match ds with
  | [] => exact absurd rfl hne
  | [_] => rw [if_pos (hsingle.2 rfl)]; rfl
  | _ :: _ :: _ =>
    rw [if_neg (mt hsingle.1 (by simp))]
    rfl

section

variable {x : Float}

theorem numberChars_eq_signed (hfinite : x.isFinite = true) :
    numberChars x = signed x (Decimal.shortest .up x).plainChars := by
  obtain ⟨hnan, hinf⟩ := (isFinite_iff x).1 hfinite
  rw [numberChars, hnan, hinf]
  by_cases hzero : (x == 0) = true
  · have hlt : ¬ x < 0 := by
      rw [lt_iff_rank hnan rfl, (beq_iff_rank.1 hzero).2.2]
      exact lt_irrefl _
    have hm : (FloatParts.ofFloat x).mant = 0 := magnitude_eq_zero_iff.1 ((beq_zero_iff hfinite).1 hzero)
    have hshortest : Decimal.shortest .up x = ⟨[0], 0⟩ := if_pos hm
    have hsigned (cs : List Char) : signed x cs = cs := if_neg hlt
    rw [hsigned, hshortest, hzero]
    rfl
  · rw [Bool.not_eq_true] at hzero
    rw [hzero]
    rfl

theorem exponentialChars_eq_signed (hfinite : x.isFinite = true) (precision : ℕ) :
    exponentialChars x precision =
      .ok (signed x (scientific (digitChars (significantDigits x.abs (precision + 1)).digits)
        (significantDigits x.abs (precision + 1)).exponent)) := by
  obtain ⟨hexpansion, hlength⟩ := isExpansion_significantDigits (isFinite_abs hfinite) precision.succ_pos
  have hsingle : precision = 0 ↔ (digitChars (significantDigits x.abs (precision + 1)).digits).length = 1 := by
    rw [digitChars, List.length_map, hlength]
    omega
  exact mantissa_bind hexpansion.chars_ne_nil hsingle _

theorem precisionChars_eq_signed (hfinite : x.isFinite = true) (precision : ℕ) :
    precisionChars x precision =
      .ok (signed x (
        let d := significantDigits x.abs (max precision 1)
        if d.exponent < -6 ∨ (max precision 1 : ℕ) ≤ d.exponent then scientific (digitChars d.digits) d.exponent
        else placed (digitChars d.digits) (d.exponent + 1))) := by
  have hcount : 0 < max precision 1 := by omega
  obtain ⟨hexpansion, hlength⟩ := isExpansion_significantDigits (isFinite_abs hfinite) hcount
  rw [precisionChars]
  dsimp only
  generalize max precision 1 = count at hexpansion hlength ⊢
  generalize significantDigits x.abs count = d at hexpansion hlength ⊢
  have hne := hexpansion.chars_ne_nil
  have hds : (digitChars d.digits).length = count := by rw [digitChars, List.length_map, hlength]
  have hpos := List.length_pos_iff.2 hne
  generalize digitChars d.digits = ds at hne hds hpos ⊢
  by_cases hmark : d.exponent < -6 ∨ (count : ℤ) ≤ d.exponent
  · rw [if_pos hmark, if_pos hmark]
    exact mantissa_bind hne (by rw [hds]) _
  · have hpositional : (if 0 ≤ d.exponent then
          if d.exponent.toNat + 1 < ds.length
          then ds.take (d.exponent.toNat + 1) ++ '.' :: ds.drop (d.exponent.toNat + 1) else ds
        else '0' :: '.' :: zeros (-d.exponent - 1).toNat ++ ds) = placed ds (d.exponent + 1) := by
      rw [placed]
      split_ifs <;> try omega
      · rw [show d.exponent.toNat + 1 = (d.exponent + 1).toNat by omega]
      · rw [show (d.exponent + 1 - ds.length).toNat = 0 by omega, zeros, List.replicate_zero, List.append_nil]
      · rw [show (-d.exponent - 1).toNat = (-(d.exponent + 1)).toNat by omega]
    rw [if_neg hmark, if_neg hmark, ← hpositional]
    split <;> rfl

/-- The digits of numbers have an expansion, whether they are the fewest or as many as are asked for. -/
theorem isExpansion_decimalParts (hfinite : x.isFinite = true) (precision : ℕ) :
    (decimalParts x precision).IsExpansion := by
  unfold decimalParts
  split
  · exact isExpansion_shortest .up x
  · rename_i hprecision
    exact (isExpansion_significantDigits hfinite (Nat.pos_of_ne_zero hprecision)).1

end

/-! ## What the layouts denote -/

/-- The text is a numeral for the digits with their exponent. It has an exponent of its own exactly if that
of the digits is as the condition says. -/
structure LaysOut (cs : List Char) (d : Decimal) (exponential : ℤ → Prop) : Prop where
  denotes : Denotes cs d.value
  mark : 'e' ∈ cs ↔ exponential d.exponent

namespace Decimal.IsExpansion

variable {d : Decimal} {exponential : ℤ → Prop}

theorem laysOut_scientific (h : d.IsExpansion) (hmark : exponential d.exponent) :
    LaysOut (scientific (digitChars d.digits) d.exponent) d exponential :=
  ⟨h.denotes_scientific, iff_of_true (mark_mem_scientific _ _) hmark⟩

theorem laysOut_placed (h : d.IsExpansion) (hmark : ¬ exponential d.exponent) :
    LaysOut (placed (digitChars d.digits) (d.exponent + 1)) d exponential :=
  ⟨h.denotes_placed, iff_of_false (mark_not_mem_placed h.digits _) hmark⟩

theorem laysOut_ite (h : d.IsExpansion) (exponential : ℤ → Prop) [DecidablePred exponential] :
    LaysOut (if exponential d.exponent then scientific (digitChars d.digits) d.exponent
      else placed (digitChars d.digits) (d.exponent + 1)) d exponential := by
  split
  · exact h.laysOut_scientific ‹_›
  · exact h.laysOut_placed ‹_›

theorem laysOut_plainChars (h : d.IsExpansion) : LaysOut d.plainChars d fun e => e ≤ -7 ∨ 21 ≤ e := by
  rw [plainChars_eq]
  exact h.laysOut_ite fun e => e ≤ -7 ∨ 21 ≤ e

theorem laysOut_positionalChars (h : d.IsExpansion) : LaysOut d.positionalChars d fun _ => False := by
  rw [h.positionalChars_eq]
  exact h.laysOut_placed id

end Decimal.IsExpansion

/-- **No layout moves the point.** Plain texts have an exponent exactly if that of the digits is at most -7
or at least 21. Scientific texts always have one, and texts with significant digits exactly if that of the
digits is below -6 or not below their number. Rounded texts have none. All of them denote the number that
the digits and their exponent make. -/
theorem layouts_denote {d : Decimal} (hd : d.IsExpansion) {x : Float} (hfinite : x.isFinite = true)
    (precision : ℕ) :
    (LaysOut d.plainChars d (fun e => e ≤ -7 ∨ 21 ≤ e) ∧ LaysOut d.positionalChars d fun _ => False) ∧
    (∃ cs, numberChars x = signed x cs ∧
      LaysOut cs (Decimal.shortest .up x) fun e => e ≤ -7 ∨ 21 ≤ e) ∧
    (∃ cs, exponentialChars x precision = .ok (signed x cs) ∧
      (significantDigits x.abs (precision + 1)).digits.length = precision + 1 ∧
      LaysOut cs (significantDigits x.abs (precision + 1)) fun _ => True) ∧
    (∃ cs, precisionChars x precision = .ok (signed x cs) ∧
      (significantDigits x.abs (max precision 1)).digits.length = max precision 1 ∧
      LaysOut cs (significantDigits x.abs (max precision 1))
        fun e => e < -6 ∨ (max precision 1 : ℕ) ≤ e) ∧
    (decimalParts x precision).IsExpansion ∧
      LaysOut (roundedChars x precision) (decimalParts x precision) fun _ => False := by
  have habs := isFinite_abs hfinite
  have hparts := isExpansion_decimalParts hfinite precision
  obtain ⟨hexponential, hlength⟩ := isExpansion_significantDigits habs precision.succ_pos
  obtain ⟨hgeneral, hlength'⟩ := isExpansion_significantDigits habs (show 0 < max precision 1 by omega)
  refine ⟨⟨hd.laysOut_plainChars, hd.laysOut_positionalChars⟩, ?_, ?_, ?_, hparts, ?_⟩
  · exact ⟨_, numberChars_eq_signed hfinite, (isExpansion_shortest .up x).laysOut_plainChars⟩
  · exact ⟨_, exponentialChars_eq_signed hfinite precision, hlength, hexponential.laysOut_scientific trivial⟩
  · exact ⟨_, precisionChars_eq_signed hfinite precision, hlength',
      hgeneral.laysOut_ite fun e => e < -6 ∨ (max precision 1 : ℕ) ≤ e⟩
  · exact hparts.laysOut_positionalChars

/-- Two digits seven places behind the point, and a negative number with two significant digits. -/
theorem layouts_denote_small :
    (Decimal.mk [1, 5] (-7)).IsExpansion ∧ 'e' ∈ (Decimal.mk [1, 5] (-7)).plainChars ∧
      Float.isFinite (-1234.5) = true ∧
      ∃ cs, precisionChars (-1234.5) 2 = .ok ('-' :: cs) ∧ Denotes cs 1200 := by
  have hd : (Decimal.mk [1, 5] (-7)).IsExpansion := ⟨by decide, by decide⟩
  have hfinite : Float.isFinite (-1234.5) = true := by decide +kernel
  obtain ⟨⟨hplain, -⟩, -, -, ⟨cs, hcs, -, hgeneral⟩, -⟩ := layouts_denote hd hfinite 2
  have hdigits : significantDigits (Float.abs (-1234.5)) 2 = ⟨[1, 2], 3⟩ := by decide +kernel
  have hneg : (-1234.5 : Float) < 0 := by decide +kernel
  have hvalue : (Decimal.mk [1, 2] 3).value = 1200 := by
    simp [Decimal.value, ofDigits]
    norm_num
  refine ⟨hd, hplain.mark.2 (.inl (by decide)), hfinite, cs, ?_, ?_⟩
  · rw [hcs, signed, if_pos hneg]
  · rw [← hvalue, ← hdigits]
    exact hgeneral.denotes

end ChartTemplate
