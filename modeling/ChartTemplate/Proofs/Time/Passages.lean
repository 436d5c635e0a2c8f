import ChartTemplate.Proofs.Time.Calendar
import ChartTemplate.Time.Pattern

/-!
# The text of a date pattern

A text is cut in one way into characters that stand for themselves, directives, and at its end perhaps a
percent sign without a letter (`DatePassage`, `passages_source`). The pieces of its pattern are those of its
passages, one for each (`scan_eq`). So what a pattern writes is what its passages write, and it is the text
that they are to write except where a mark of padding stands before a second percent sign, or at the end:
there the mark is lost (`format_passages_iff`). The pieces of a pattern, written as directives again, are cut
into the same pieces (`ofText_written`).
-/

namespace ChartTemplate

/-- A stretch of a date pattern. -/
inductive DatePassage where
  /-- A character that stands for itself. -/
  | plain (c : Char)
  /-- A percent sign, perhaps a mark of padding, and a letter. -/
  | directive (pad : Option PadMark) (code : Char)
  /-- A percent sign, perhaps with a mark of padding, at the end. -/
  | cutShort (pad : Option PadMark)

namespace DatePassage

def source : DatePassage → List Char
  | plain c => [c]
  | directive pad code => DatePattern.directiveSource code pad
  | cutShort pad => '%' :: (pad.map PadMark.char).toList

/-- The piece of the pattern that the passage becomes. -/
def piece : DatePassage → DatePiece
  | plain c => .literal c
  | directive pad code => DatePattern.pieceOf code pad
  | cutShort _ => .literal '%'

/-- The text that the passage stands for: its own, but that of a directive with a meaning is the part of the
date, and a doubled percent sign is a single one. -/
def text (t : Instant) (offset : Int) : DatePassage → List Char
  | plain c => [c]
  | directive pad code =>
    if pad = none ∧ code = '%' then ['%']
    else (DatePattern.directiveChars? code pad t offset).getD (DatePattern.directiveSource code pad)
  | cutShort pad => (cutShort pad).source

/-- Whether the passage has a mark of padding, but no letter other than a percent sign. -/
def losesMark : DatePassage → Bool
  | plain _ => false
  | directive pad code => pad.isSome && code == '%'
  | cutShort pad => pad.isSome

end DatePassage

namespace DatePattern

open DatePassage (source piece)

/-- Whether the passages may follow each other: a character that stands for itself is no percent sign, a
letter without a mark is none itself, and nothing follows where the text ends. -/
def WellCut : List DatePassage → Prop
  | [] => True
  | .plain c :: ps => c ≠ '%' ∧ WellCut ps
  | .directive none code :: ps => PadMark.ofChar? code = none ∧ WellCut ps
  | .directive (some _) _ :: ps => WellCut ps
  | .cutShort _ :: ps => ps = []

def passages : List Char → List DatePassage
  | [] => []
  | ['%'] => [.cutShort none]
  | '%' :: c :: cs =>
    match PadMark.ofChar? c with
    | none => .directive none c :: passages cs
    | some pad =>
      match cs with
      | [] => [.cutShort (some pad)]
      | d :: ds => .directive (some pad) d :: passages ds
  | c :: cs => .plain c :: passages cs
termination_by cs => cs.length

theorem ofChar?_char (pad : PadMark) : PadMark.ofChar? pad.char = some pad := by
  cases pad <;> rfl

theorem char_of_ofChar? {c : Char} {pad : PadMark} (h : PadMark.ofChar? c = some pad) : pad.char = c := by
  unfold PadMark.ofChar? at h
  split at h <;> cases h <;> rfl

/-! ## Passages of a text -/

theorem flatMap_source_passages (cs : List Char) : (passages cs).flatMap source = cs := by
  fun_induction passages cs with
  | case1 => rfl
  | case2 => rfl
  | case3 c cs hpad ih => simp [source, directiveSource, ih]
  | case4 c pad hpad => simp [source, char_of_ofChar? hpad]
  | case5 c pad hpad d ds ih => simp [source, directiveSource, char_of_ofChar? hpad, ih]
  | case6 c cs hlast hmore ih => simp [source, ih]

theorem wellCut_passages (cs : List Char) : WellCut (passages cs) := by
  fun_induction passages cs with
  | case1 => trivial
  | case2 => rfl
  | case3 c cs hpad ih => exact ⟨hpad, ih⟩
  | case4 c pad hpad => rfl
  | case5 c pad hpad d ds ih => exact ih
  | case6 c cs hlast hmore ih =>
    refine ⟨fun hc => ?_, ih⟩
    cases cs with
    | nil => exact hlast hc rfl
    | cons d ds => exact hmore d ds hc rfl

theorem passages_source {ps : List DatePassage} (h : WellCut ps) : passages (ps.flatMap source) = ps := by
  induction ps with
  | nil => simp [passages]
  | cons p ps ih =>
    rw [List.flatMap_cons]
    cases p with
    | plain c =>
      obtain ⟨hc, hps⟩ := h
      rw [source, List.singleton_append, passages, ih hps]
      · exact fun hpercent => absurd hpercent hc
      · exact fun _ _ hpercent => absurd hpercent hc
    | directive pad code =>
      cases pad with
      | none =>
        obtain ⟨hcode, hps⟩ := h
        simp [source, directiveSource, passages, hcode, ih hps]
      | some pad => simp [source, directiveSource, passages, ofChar?_char, ih h]
    | cutShort pad =>
      obtain rfl : ps = [] := h
      cases pad with
      | none => simp [source, passages]
      | some pad => simp [source, passages, ofChar?_char]

theorem scan_eq (cs : List Char) : scan cs = (passages cs).map piece := by
  fun_induction passages cs with
  | case1 => simp [scan]
  | case2 => simp [scan, piece]
  | case3 c cs hpad ih => simp [scan, piece, hpad, ih]
  | case4 c pad hpad => simp [scan, piece, hpad]
  | case5 c pad hpad d ds ih => simp [scan, piece, hpad, ih]
  | case6 c cs hlast hmore ih =>
    rw [scan, ih]
    · rfl
    · exact hlast
    · exact hmore

/-! ## What is written for them -/

section

variable (t : Instant) (offset : ℤ) (p : DatePassage)

theorem pieceChars_piece : pieceChars t offset p.piece = if p.losesMark then ['%'] else p.text t offset := by
  cases p with
  | plain c => rfl
  | directive pad code =>
    by_cases hcode : code = '%'
    · subst hcode
      cases pad <;> rfl
    · simp [piece, pieceOf, pieceChars, DatePassage.losesMark, DatePassage.text, hcode]
  | cutShort pad => cases pad <;> rfl

theorem length_text_of_losesMark (h : p.losesMark = true) : 1 < (p.text t offset).length := by
  cases p with
  | plain c => cases h
  | directive pad code =>
    obtain ⟨hpad, hcode⟩ := Bool.and_eq_true_iff.1 h
    obtain rfl : code = '%' := by simpa using hcode
    obtain ⟨pad, rfl⟩ := Option.isSome_iff_exists.1 hpad
    exact Nat.lt_of_sub_pos Nat.two_pos
  | cutShort pad =>
    obtain ⟨pad, rfl⟩ := Option.isSome_iff_exists.1 h
    exact Nat.one_lt_two

theorem length_pieceChars_le : (pieceChars t offset p.piece).length ≤ (p.text t offset).length := by
  rw [pieceChars_piece]
  split
  · exact (length_text_of_losesMark t offset p ‹_›).le
  · exact le_rfl

theorem length_flatMap_pieceChars_le (ps : List DatePassage) :
    (ps.flatMap fun p => pieceChars t offset p.piece).length ≤ (ps.flatMap (DatePassage.text t offset)).length := by
  induction ps with
  | nil => exact le_rfl
  | cons p ps ih =>
    have hfirst := length_pieceChars_le t offset p
    simp only [List.flatMap_cons, List.length_append]
    omega

theorem flatMap_pieceChars_iff (ps : List DatePassage) :
    (ps.flatMap fun p => pieceChars t offset p.piece) = ps.flatMap (DatePassage.text t offset) ↔
      ∀ p ∈ ps, p.losesMark = false := by
  induction ps with
  | nil => simp
  | cons p ps ih =>
    rw [List.flatMap_cons, List.flatMap_cons, List.forall_mem_cons, pieceChars_piece]
    cases hloses : p.losesMark with
    | false => simpa using ih
    | true =>
      -- What is lost is not made up for later.
      have hfirst := length_text_of_losesMark t offset p hloses
      have hrest := length_flatMap_pieceChars_le t offset ps
      refine iff_of_false (fun heq => ?_) (by simp)
      have hlength := congrArg List.length heq
      simp only [if_true, List.length_append, List.length_singleton] at hlength
      omega

end

/-! ## Patterns that are written again -/

/-- A piece as it is written in a pattern, a percent sign doubled. -/
def writtenPiece : DatePiece → List Char
  | .literal c => if c = '%' then ['%', '%'] else [c]
  | .directive code pad => directiveSource code pad

def written (p : DatePattern) : String :=
  String.ofList (p.pieces.flatMap writtenPiece)

def passageOf : DatePiece → DatePassage
  | .literal c => if c = '%' then .directive none '%' else .plain c
  | .directive code pad => .directive pad code

theorem passageOf_literal {c : Char} (hc : c ≠ '%') : passageOf (.literal c) = .plain c :=
  if_neg hc

theorem source_passageOf (d : DatePiece) : (passageOf d).source = writtenPiece d := by
  cases d with
  | literal c =>
    by_cases hc : c = '%'
    · subst hc
      rfl
    · rw [passageOf_literal hc, writtenPiece, if_neg hc, source]
  | directive code pad => rfl

theorem piece_passageOf (p : DatePassage) : (passageOf p.piece).piece = p.piece := by
  have hpercent : (passageOf (.literal '%')).piece = .literal '%' := rfl
  cases p with
  | plain c =>
    by_cases hc : c = '%'
    · rw [hc]
      exact hpercent
    · rw [piece, passageOf_literal hc, piece]
  | directive pad code =>
    by_cases hcode : code = '%'
    · rw [piece, pieceOf, if_pos hcode, hpercent]
    · rw [piece, pieceOf, if_neg hcode, passageOf, piece, pieceOf, if_neg hcode]
  | cutShort pad => exact hpercent

theorem wellCut_passageOf {ps : List DatePassage} (h : WellCut ps) :
    WellCut (ps.map fun p => passageOf p.piece) := by
  induction ps with
  | nil => trivial
  | cons p ps ih =>
    have hpercent {qs : List DatePassage} (hqs : WellCut qs) : WellCut (passageOf (.literal '%') :: qs) :=
      ⟨rfl, hqs⟩
    rw [List.map_cons]
    cases p with
    | plain c =>
      rw [piece, passageOf_literal h.1]
      exact ⟨h.1, ih h.2⟩
    | directive pad code =>
      by_cases hcode : code = '%'
      · rw [piece, pieceOf, if_pos hcode]
        cases pad with
        | none => exact hpercent (ih h.2)
        | some pad => exact hpercent (ih h)
      · rw [piece, pieceOf, if_neg hcode]
        cases pad with
        | none => exact ⟨h.1, ih h.2⟩
        | some pad => exact ih h
    | cutShort pad =>
      obtain rfl : ps = [] := h
      exact hpercent trivial

/-- **A pattern that is written again** is cut into the same pieces. -/
theorem ofText_written (s : String) : ofText (ofText s).written = ofText s := by
  have hmap : ((passages s.toList).map piece).flatMap writtenPiece =
      ((passages s.toList).map fun p => passageOf p.piece).flatMap source := by
    rw [List.flatMap_map, List.flatMap_map]
    simp only [source_passageOf]
  have hpieces : ((passages s.toList).map fun p => passageOf p.piece).map piece = (passages s.toList).map piece := by
    rw [List.map_map]
    exact List.map_congr_left fun p _ => piece_passageOf p
  rw [written, ofText, ofText, String.toList_ofList, scan_eq s.toList, hmap, scan_eq,
    passages_source (wellCut_passageOf (wellCut_passages s.toList)), hpieces]

/-- **What a pattern writes**: each passage of its text as it stands, with a doubled percent sign as a single
one and known directives as parts of the date, but for marks of padding before a second percent sign or at
the end, which are lost. It writes all that its passages stand for exactly if there is no such mark. A text
is cut into passages in one way, and the pieces that are made of it are made again of the text that is
written for them. -/
theorem format_passages_iff (s : String) (t : Instant) (offset : ℤ) :
    (WellCut (passages s.toList) ∧ (passages s.toList).flatMap source = s.toList ∧
      ∀ ps, WellCut ps → ps.flatMap source = s.toList → ps = passages s.toList) ∧
    (ofText s).format t offset =
      String.ofList ((passages s.toList).flatMap fun p => if p.losesMark then ['%'] else p.text t offset) ∧
    ((ofText s).format t offset = String.ofList ((passages s.toList).flatMap (DatePassage.text t offset)) ↔
      ∀ p ∈ passages s.toList, p.losesMark = false) ∧
    ofText (ofText s).written = ofText s := by
  have hformat : (ofText s).format t offset = String.ofList ((passages s.toList).flatMap fun p => pieceChars t offset p.piece) := by
    rw [format, ofText, scan_eq, List.flatMap_map]
  refine ⟨⟨wellCut_passages _, flatMap_source_passages _, fun ps hps hsource => ?_⟩, ?_, ?_, ofText_written s⟩
  · rw [← hsource, passages_source hps]
  · rw [hformat]
    simp only [pieceChars_piece]
  · rw [hformat, String.ofList_inj, flatMap_pieceChars_iff]

/-- A mark of padding at the end of a text is lost. -/
theorem format_loses_mark :
    (ofText "%-").format ⟨0, 0⟩ = "%" ∧
      String.ofList ((passages "%-".toList).flatMap (DatePassage.text ⟨0, 0⟩ 0)) = "%-" := by
  have hpassages : passages "%-".toList = [.cutShort (some .bare)] := by simp [passages, PadMark.ofChar?]
  have hscan : scan "%-".toList = [.literal '%'] := by simp [scan, PadMark.ofChar?]
  rw [format, ofText, hscan, hpassages]
  exact ⟨rfl, rfl⟩

end DatePattern

end ChartTemplate
