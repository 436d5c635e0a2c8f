import ChartTemplate.Proofs.Format.Grouping
import Mathlib.Algebra.BigOperators.Group.List.Basic

/-!
# Padded numbers

Unless zeros are grouped with the digits, a width adds padding to the text of a number and changes
nothing else (`assemble_eq_pad`). Where zeros are grouped, the groups end only when they fill the width
(`min_le_length_group_some`), so that no text is shorter than its width (`width_le_length_assemble`).
`NumberFormat.format_padded` says both about formats.
-/

namespace ChartTemplate

/-- A text of a lead and the rest of it, with `k` fill characters. In the middle of a field the text has
the smaller half of them in front. -/
def Align.pad (align : Align) (fill : Char) (k : ℕ) (lead rest : List Char) : List Char :=
  match align with
  | .left => lead ++ rest ++ List.replicate k fill
  | .right => List.replicate k fill ++ (lead ++ rest)
  | .afterSign => lead ++ List.replicate k fill ++ rest
  | .center => List.replicate (k / 2) fill ++ (lead ++ rest) ++ List.replicate (k - k / 2) fill

theorem Align.length_pad (align : Align) (fill : Char) (k : ℕ) (lead rest : List Char) :
    (align.pad fill k lead rest).length = k + (lead ++ rest).length := by
  cases align with
  | left => simp [pad]; omega
  | right => simp [pad]
  | afterSign => simp [pad]; omega
  | center => simp [pad]; omega

theorem Align.pad_zero (align : Align) (fill : Char) (lead rest : List Char) :
    align.pad fill 0 lead rest = lead ++ rest := by
  cases align <;> simp [pad]

/-! ## Lengths of groups -/

theorem length_joinChars_comma {ts : List (List Char)} (h : ts ≠ []) :
    (joinChars [','] ts).length + 1 = (ts.map fun t => t.length + 1).sum := by
  induction ts using joinChars.induct with
  | case1 => exact absurd rfl h
  | case2 t => simp [joinChars]
  | case3 t ts hts ih =>
    rw [joinChars, List.map_cons, List.sum_cons, ← ih hts, List.length_append, List.length_append,
      List.length_singleton]
    · omega
    · exact hts

theorem length_flatten_le (ts : List (List Char)) :
    ts.flatten.length ≤ (joinChars [','] ts).length := by
  induction ts using joinChars.induct with
  | case1 => exact Nat.le_refl 0
  | case2 t => simp [joinChars]
  | case3 t ts hts ih =>
    rw [joinChars, List.flatten_cons, List.length_append, List.length_append, List.length_append]
    · omega
    · exact hts

theorem le_length_group_none (cs : List Char) : cs.length ≤ (group none cs).length := by
  have h := length_flatten_le (groupsRev none 0 cs.reverse).reverse
  rwa [flatten_groupsRev_none, List.reverse_reverse] at h

/-- Groups with a limit end where the characters do, or when they fill what was left of the limit. -/
theorem min_lt_sum_groupsRev {w length : ℕ} {rev : List Char} (hne : rev ≠ []) (hle : length ≤ w) :
    min rev.length (w - length) <
      ((groupsRev (some w) length rev).map fun t => t.length + 1).sum := by
  fun_induction groupsRev (some w) length rev with
  | case1 => exact absurd rfl hne
  | case2 length c cs size rest next more ih =>
    rw [List.map_cons, List.sum_cons, List.length_reverse, List.length_take]
    by_cases hroom : w - length < 4
    · -- the last group
      have hsize : size = max (w - length) 1 := if_pos (by omega)
      rw [hsize]
      omega
    · have hsize : size = 3 := if_neg (by omega)
      have hnext : next = length + 4 := by omega
      have hmore : more = true := decide_eq_true (by omega)
      have hrest : rest = cs.drop 2 := by
        show cs.drop (size - 1) = _
        rw [hsize]
      rw [if_pos hmore, hsize]
      by_cases hend : rest = []
      · have hlength : cs.length ≤ 2 := List.drop_eq_nil_iff.1 (hrest ▸ hend)
        rw [List.length_cons]
        omega
      · have hlt := ih hend (by omega)
        have hlength : rest.length = cs.length - 2 := by rw [hrest, List.length_drop]
        rw [hlength] at hlt
        rw [List.length_cons]
        omega

theorem groupsRev_ne_nil {limit : Option ℕ} {length : ℕ} {rev : List Char} (h : rev ≠ []) :
    groupsRev limit length rev ≠ [] := by
  cases rev with
  | nil => exact absurd rfl h
  | cons c cs =>
    unfold groupsRev
    exact List.cons_ne_nil _ _

theorem min_le_length_group_some (w : ℕ) (cs : List Char) :
    min cs.length w ≤ (group (some w) cs).length := by
  by_cases hne : cs = []
  · rw [hne]
    exact Nat.min_le_left _ _ |>.trans (Nat.zero_le _)
  · have hne : cs.reverse ≠ [] := fun h => hne (List.reverse_eq_nil_iff.1 h)
    have hlt := min_lt_sum_groupsRev hne (Nat.zero_le w)
    have hgroups : (groupsRev (some w) 0 cs.reverse).reverse ≠ [] := fun h =>
      groupsRev_ne_nil hne (List.reverse_eq_nil_iff.1 h)
    have hjoin := length_joinChars_comma hgroups
    rw [List.map_reverse, List.sum_reverse] at hjoin
    rw [List.length_reverse] at hlt
    rw [group]
    omega

def FormatSpec.withoutWidth (spec : FormatSpec) : FormatSpec :=
  { spec with width := none }

namespace NumberFormat

variable {fmt : NumberFormat} {x : Float} {p : Pieces}

/-! ## Pieces in a field -/

/-- Zeros of the padding are grouped with the digits. -/
def GroupsPadding (spec : FormatSpec) : Prop :=
  spec.comma = true ∧ spec.zero = true

/-- What follows the lead of a number without padding. -/
def unpadded (spec : FormatSpec) (p : Pieces) : List Char :=
  (if spec.comma then group none p.body else p.body) ++ p.tail

theorem assemble_eq_pad {spec : FormatSpec} (h : ¬ GroupsPadding spec) (p : Pieces) :
    assemble spec p =
      spec.align.pad spec.fill (spec.width.getD 0 - (p.lead ++ unpadded spec p).length) p.lead
        (unpadded spec p) := by
  have hzero : (spec.comma && spec.zero) = false := by
    rw [Bool.and_eq_false_iff]
    rcases not_and_or.1 h with hcomma | hzero
    · exact .inl (Bool.eq_false_iff.2 hcomma)
    · exact .inr (Bool.eq_false_iff.2 hzero)
  have hbody : (if (spec.comma && !spec.zero) = true then group none p.body else p.body) =
      if spec.comma then group none p.body else p.body := by
    cases hcomma : spec.comma with
    | false => rfl
    | true =>
      rw [hcomma, Bool.true_and] at hzero
      rw [hzero]
      rfl
  unfold assemble
  rw [hzero, hbody]
  unfold unpadded
  generalize (if spec.comma then group none p.body else p.body) = body
  have hlength : (p.lead ++ (body ++ p.tail)).length = p.lead.length + body.length + p.tail.length := by
    simp only [List.length_append, Nat.add_assoc]
  rw [hlength]
  cases spec.align with
  | left | right | afterSign => simp [Align.pad]
  | center =>
    simp [Align.pad]
    omega

theorem assemble_withoutWidth {spec : FormatSpec} (h : ¬ GroupsPadding spec) (p : Pieces) :
    assemble spec.withoutWidth p = p.lead ++ unpadded spec p := by
  have hspec : ¬ GroupsPadding spec.withoutWidth := h
  rw [assemble_eq_pad hspec]
  show spec.align.pad spec.fill (0 - _) _ _ = _
  rw [Nat.zero_sub, Align.pad_zero]
  rfl

theorem width_le_length_assemble (spec : FormatSpec) (p : Pieces) :
    spec.width.getD 0 ≤ (assemble spec p).length := by
  by_cases h : GroupsPadding spec
  · obtain ⟨hcomma, hzero⟩ := h
    have htext : assemble spec p = p.lead ++ grouped spec p ++ p.tail := by
      obtain ⟨i, j, k, hspace, htext⟩ := frames_assemble hcomma p
      obtain ⟨rfl, rfl, rfl⟩ := hspace hzero
      simpa using htext
    rw [htext, grouped, hzero, if_pos rfl, List.length_append, List.length_append]
    split
    · have hle := min_le_length_group_some (spec.width.getD 0 - p.tail.length)
        (List.replicate (spec.width.getD 0 - (p.lead.length + p.body.length + p.tail.length)) spec.fill ++
          p.body)
      rw [List.length_append, List.length_replicate] at hle
      omega
    · have hle := le_length_group_none (List.replicate
        (spec.width.getD 0 - (p.lead.length + p.body.length + p.tail.length)) spec.fill ++ p.body)
      rw [List.length_append] at hle
      omega
  · rw [assemble_eq_pad h, Align.length_pad]
    omega

/-! ## Formats of specifiers with a width -/

theorem width_ofSpec (spec : FormatSpec) : (ofSpec spec).spec.width = spec.width := rfl

theorem groupsPadding_ofSpec_iff (spec : FormatSpec) :
    GroupsPadding (ofSpec spec).spec ↔
      (spec.comma = true ∨ spec.kind = some 'n') ∧
        (spec.zero = true ∨ spec.fill = '0' ∧ spec.align = .afterSign) := by
  have hzero : (ofSpec spec).spec.zero = true ↔
      spec.zero = true ∨ spec.fill = '0' ∧ spec.align = .afterSign := by
    unfold ofSpec
    simp
  have hcomma : (ofSpec spec).spec.comma = true ↔ spec.comma = true ∨ spec.kind = some 'n' := by
    unfold ofSpec
    dsimp only
    split
    · rename_i hkind
      simp [hkind]
    · rename_i hkind
      have hkind : spec.kind ≠ some 'n' := hkind
      split <;> simp [hkind]
  rw [GroupsPadding, hzero, hcomma]

/-- What a number is led by: its sign in the mode of the format, and the symbol. Plain text has its sign
in itself. -/
def SignAndSymbol (fmt : NumberFormat) (lead : List Char) : Prop :=
  ∃ sign, lead = sign ++ fmt.lead.toList ∧
    if fmt.style = .character then sign = [] else ∃ negative, sign = signChars fmt.spec.sign negative

theorem signAndSymbol_of_pieces (h : fmt.pieces x = .ok p) : fmt.SignAndSymbol p.lead := by
  rw [pieces_eq] at h
  unfold SignAndSymbol
  split at h
  · rename_i hcharacter
    cases h
    exact ⟨[], rfl, by rw [if_pos hcharacter]⟩
  · rename_i hcharacter
    obtain ⟨written, -, rfl⟩ := exists_of_map_eq_ok h
    refine ⟨_, rfl, ?_⟩
    rw [if_neg hcharacter]
    exact ⟨_, rfl⟩

/-- **Padding.** No text of a format is shorter than the width. If zeros of the padding are not grouped,
it is as long as the width or the text without a width, whichever is longer, and it is that text with fill
characters put where the alignment says. -/
theorem format_padded {spec : FormatSpec} {w : ℕ} (hwidth : spec.width = some w) (x : Float) :
    (∀ text, (ofSpec spec).format x = .ok text → w ≤ text.length) ∧
    (∀ reference text, (withThousands spec reference).format x = .ok text → w ≤ text.length) ∧
    (¬ ((spec.comma = true ∨ spec.kind = some 'n') ∧
        (spec.zero = true ∨ spec.fill = '0' ∧ spec.align = .afterSign)) →
      ∀ text, (ofSpec spec).format x = .ok text → ∃ bare p rest,
        (ofSpec spec.withoutWidth).format x = .ok bare ∧
        (ofSpec spec).pieces x = .ok p ∧ (ofSpec spec).SignAndSymbol p.lead ∧
        bare.toList = p.lead ++ rest ∧ text.length = max w bare.length ∧
        text.toList = (ofSpec spec).spec.align.pad (ofSpec spec).spec.fill (w - bare.length) p.lead rest) := by
  have hfield {fmt : NumberFormat} (hfmt : fmt.spec.width = some w) {text : String}
      (h : fmt.format x = .ok text) : w ≤ text.length := by
    rw [format_eq] at h
    obtain ⟨p, -, rfl⟩ := exists_of_map_eq_ok h
    have hle := width_le_length_assemble fmt.spec p
    rw [hfmt, Option.getD_some] at hle
    rw [String.length_ofList, List.length_append]
    omega
  refine ⟨fun text => hfield (hwidth ▸ width_ofSpec spec),
    fun reference text => hfield (hwidth ▸ width_ofSpec { spec with kind := some 'f' }), ?_⟩
  intro hgroups text htext
  rw [← groupsPadding_ofSpec_iff] at hgroups
  obtain ⟨p, hpieces, rfl⟩ := exists_of_map_eq_ok ((format_eq _ x).symm.trans htext)
  have hbare : (ofSpec spec.withoutWidth).format x =
      .ok (String.ofList (p.lead ++ unpadded (ofSpec spec).spec p)) := by
    -- the pieces are those of the format with its width
    have hpieces : (ofSpec spec.withoutWidth).pieces x = .ok p := hpieces
    rw [format_eq]
    show Except.map _ ((ofSpec spec.withoutWidth).pieces x) = _
    rw [hpieces]
    show Except.ok (String.ofList (assemble (ofSpec spec).spec.withoutWidth p ++ [])) = _
    rw [assemble_withoutWidth hgroups, List.append_nil]
  have htext : assemble (ofSpec spec).spec p ++ (ofSpec spec).unitChars =
      (ofSpec spec).spec.align.pad (ofSpec spec).spec.fill
        (w - (p.lead ++ unpadded (ofSpec spec).spec p).length) p.lead (unpadded (ofSpec spec).spec p) := by
    show assemble (ofSpec spec).spec p ++ [] = _
    rw [List.append_nil, assemble_eq_pad hgroups, width_ofSpec, hwidth, Option.getD_some]
  refine ⟨_, p, unpadded (ofSpec spec).spec p, hbare, hpieces, signAndSymbol_of_pieces hpieces,
    String.toList_ofList, ?_, ?_⟩
  · rw [String.length_ofList, String.length_ofList, htext, Align.length_pad]
    omega
  · rw [String.toList_ofList, String.length_ofList, htext]

/-- A price in a field of twelve characters, with stars behind the sign and the symbol. -/
def priceSpec : FormatSpec :=
  { fill := '*', align := .afterSign, sign := .plus, symbol := some .currency, width := some 12
    precision := some 2, kind := some 'f' }

theorem format_padded_price :
    priceSpec.width = some 12 ∧ (ofSpec priceSpec).format 1234.5 = .ok "+$***1234.50" ∧
    ∃ bare p rest,
      (ofSpec priceSpec.withoutWidth).format 1234.5 = .ok bare ∧
      (ofSpec priceSpec).pieces 1234.5 = .ok p ∧ (ofSpec priceSpec).SignAndSymbol p.lead ∧
      bare.toList = p.lead ++ rest ∧ "+$***1234.50".length = max 12 bare.length ∧
      "+$***1234.50".toList = (ofSpec priceSpec).spec.align.pad (ofSpec priceSpec).spec.fill
        (12 - bare.length) p.lead rest := by
  have hprice : (ofSpec priceSpec).format 1234.5 = .ok "+$***1234.50" := by decide +kernel
  exact ⟨rfl, hprice, (format_padded rfl 1234.5).2.2 (by decide) _ hprice⟩

end NumberFormat

end ChartTemplate
