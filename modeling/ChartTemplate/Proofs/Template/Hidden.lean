import ChartTemplate.Template.Hidden
import Mathlib.Data.List.Basic

/-!
# Hiding template text and bringing it back

A template is written with some of its text in marked block comments (`Passage.written`), and `reveal`
turns it into the text that was meant (`Passage.text`). Both scanners look for two characters in a row,
so a delimiter could also come about where two texts meet: what follows a plain text begins with `/`,
which does not close a `/*` (`revealBlocks_plain`), and what follows a hidden text begins with `*`, which
does not close a `*/` (`splitBlock?_append`). The lines of the result are scanned again, and stay if no
line of it has a marked comment (`joinLines_revealLine`).
-/

namespace ChartTemplate

/-! ## Block comments -/

theorem revealBlocks_cons {c : Char} {cs : List Char} (h : c = '/' → cs.head? ≠ some '*') :
    revealBlocks (c :: cs) = c :: revealBlocks cs := by
  rw [revealBlocks]
  rintro r rfl rfl
  exact h rfl rfl

theorem revealBlocks_plain {cs rest : List Char} (h : ¬ ['/', '*'] <:+: cs)
    (hrest : rest.head? ≠ some '*') : revealBlocks (cs ++ rest) = cs ++ revealBlocks rest := by
  induction cs with
  | nil => rfl
  | cons c cs ih =>
    have htail : ¬ ['/', '*'] <:+: cs := fun hcs => h (List.infix_cons hcs)
    rw [List.cons_append, revealBlocks_cons, ih htail, List.cons_append]
    rintro rfl
    cases cs with
    | nil => exact hrest
    | cons d cs =>
      intro hd
      obtain rfl : d = '*' := by simpa using hd
      exact h ⟨[], cs, rfl⟩

theorem splitBlock?_cons {c : Char} {cs : List Char} (h : c = '*' → cs.head? ≠ some '/') :
    splitBlock? (c :: cs) = (splitBlock? cs).map fun p => (c :: p.1, p.2) := by
  rw [splitBlock?]
  rintro r rfl rfl
  exact h rfl rfl

theorem splitBlock?_append {cs : List Char} (h : ¬ ['*', '/'] <:+: cs) (rest : List Char) :
    splitBlock? (cs ++ '*' :: '/' :: rest) = some (cs, rest) := by
  induction cs with
  | nil => rfl
  | cons c cs ih =>
    have htail : ¬ ['*', '/'] <:+: cs := fun hcs => h (List.infix_cons hcs)
    rw [List.cons_append, splitBlock?_cons, ih htail]
    · rfl
    · rintro rfl
      cases cs with
      | nil => simp
      | cons d cs =>
        intro hd
        obtain rfl : d = '/' := by simpa using hd
        exact h ⟨[], cs, rfl⟩

theorem afterMark?_eq_some_iff {cs r : List Char} :
    afterMark? cs = some r ↔ ∃ b, isBlank b = true ∧ cs = b :: hiddenMark ++ r := by
  constructor
  · intro h
    unfold afterMark? at h
    split at h
    · split at h
      · rename_i b r hb
        cases h
        exact ⟨b, hb, rfl⟩
      · cases h
    · cases h
  · rintro ⟨b, hb, rfl⟩
    simp [afterMark?, hiddenMark, hb]

theorem revealBlocks_hidden {b : Char} (hb : isBlank b = true) {cs : List Char}
    (h : ¬ ['*', '/'] <:+: cs) (rest : List Char) :
    revealBlocks ('/' :: '*' :: b :: hiddenMark ++ cs ++ '*' :: '/' :: rest) =
      cs ++ revealBlocks rest := by
  have hmark : afterMark? (b :: hiddenMark ++ (cs ++ '*' :: '/' :: rest)) =
      some (cs ++ '*' :: '/' :: rest) := afterMark?_eq_some_iff.2 ⟨b, hb, rfl⟩
  have hsplit := splitBlock?_append h rest
  show revealBlocks ('/' :: '*' :: (b :: hiddenMark ++ cs ++ '*' :: '/' :: rest)) = _
  rw [List.append_assoc, revealBlocks]
  split
  · rename_i hnone
    rw [hmark] at hnone
    cases hnone
  · rename_i body hbody
    rw [hmark] at hbody
    cases hbody
    split
    · rename_i inner rest' hinner
      rw [hsplit] at hinner
      cases hinner
      rfl
    · rename_i hnone
      rw [hsplit] at hnone
      cases hnone

theorem hiddenMark_infix_of_afterMark? {cs r : List Char} (h : afterMark? cs = some r) :
    hiddenMark <:+: cs := by
  obtain ⟨b, -, rfl⟩ := afterMark?_eq_some_iff.1 h
  exact ⟨[b], r, rfl⟩

theorem revealBlocks_of_no_mark {cs : List Char} (h : ¬ hiddenMark <:+: cs) : revealBlocks cs = cs := by
  fun_induction revealBlocks cs with
  | case1 => rfl
  | case2 r hmark ih =>
    rw [ih fun hr => h (List.infix_cons (List.infix_cons hr))]
  | case3 r body hmark inner rest hsplit ih =>
    exact absurd (List.infix_cons (List.infix_cons (hiddenMark_infix_of_afterMark? hmark))) h
  | case4 r body hmark hsplit => rfl
  | case5 c r hc ih => rw [ih fun hr => h (List.infix_cons hr)]

/-! ## Lines -/

/-- A line has a marked line comment: its opening, a blank, the mark and another blank. -/
def MarksLine (line : List Char) : Prop :=
  ∃ b c, isBlank b = true ∧ isBlank c = true ∧ '/' :: '/' :: b :: hiddenMark ++ [c] <:+: line

theorem MarksLine.of_infix {line part : List Char} (h : MarksLine part) (hpart : part <:+: line) :
    MarksLine line := by
  obtain ⟨b, c, hb, hc, hmark⟩ := h
  exact ⟨b, c, hb, hc, hmark.trans hpart⟩

theorem MarksLine.mark_infix {line : List Char} (h : MarksLine line) : hiddenMark <:+: line := by
  obtain ⟨b, c, -, -, hmark⟩ := h
  exact List.IsInfix.trans ⟨['/', '/', b], [c], rfl⟩ hmark

theorem revealLine_of_not_marks {line : List Char} (h : ¬ MarksLine line) : revealLine line = line := by
  fun_induction revealLine line with
  | case1 => rfl
  | case2 r c body hmark hc =>
    obtain ⟨b, hb, rfl⟩ := afterMark?_eq_some_iff.1 hmark
    exact absurd ⟨b, c, hb, hc, [], body, rfl⟩ h
  | case3 r c body hmark hc ih =>
    rw [ih fun hr => h (hr.of_infix (List.infix_cons (List.infix_cons (List.infix_refl r))))]
  | case4 r hmark ih =>
    rw [ih fun hr => h (hr.of_infix (List.infix_cons (List.infix_cons (List.infix_refl r))))]
  | case5 c r hc ih => rw [ih fun hr => h (hr.of_infix (List.infix_cons (List.infix_refl r)))]

theorem splitLines_eq (cs : List Char) : splitLines cs = cs.splitOn '\n' := by
  induction cs with
  | nil => rfl
  | cons c cs ih =>
    rw [splitLines, ih, List.splitOn_eq_splitOnP, List.splitOn_eq_splitOnP,
      List.splitOnP_cons_eq_if_modifyHead]
    cases hlines : List.splitOnP (fun x => x == '\n') cs with
    | nil => exact absurd hlines (List.splitOnP_ne_nil _ _)
    | cons l ls => by_cases hc : c = '\n' <;> simp [hc]

theorem joinLines_eq (lines : List (List Char)) : joinLines lines = ['\n'].intercalate lines := by
  fun_induction joinLines lines with
  | case1 => rfl
  | case2 l => simp
  | case3 l ls hls ih =>
    cases ls with
    | nil => exact absurd rfl hls
    | cons l' ls =>
      rw [ih, List.intercalate_cons_cons]
      simp

theorem joinLines_splitOn (cs : List Char) : joinLines (cs.splitOn '\n') = cs := by
  rw [joinLines_eq, List.intercalate_splitOn]

theorem infix_joinLines {line : List Char} {lines : List (List Char)} (h : line ∈ lines) :
    line <:+: joinLines lines := by
  fun_induction joinLines lines with
  | case1 => cases h
  | case2 l =>
    obtain rfl := List.mem_singleton.1 h
    exact List.infix_refl line
  | case3 l ls hls ih =>
    rcases List.mem_cons.1 h with rfl | h
    · exact ⟨[], _, rfl⟩
    · exact (ih h).trans ⟨l ++ ['\n'], [], by simp⟩

theorem joinLines_revealLine {cs : List Char} (h : ∀ line ∈ cs.splitOn '\n', ¬ MarksLine line) :
    joinLines ((splitLines cs).map revealLine) = cs := by
  have hlines : (cs.splitOn '\n').map revealLine = cs.splitOn '\n' :=
    (List.map_congr_left fun line hline => revealLine_of_not_marks (h line hline)).trans
      (List.map_id _)
  rw [splitLines_eq, hlines, joinLines_splitOn]

theorem not_marksLine_of_no_mark {cs : List Char} (h : ¬ hiddenMark <:+: cs) :
    ∀ line ∈ cs.splitOn '\n', ¬ MarksLine line := by
  intro line hline hmarks
  have hinfix := infix_joinLines hline
  rw [joinLines_splitOn] at hinfix
  exact h (hmarks.mark_infix.trans hinfix)

/-! ## Passages of a template -/

/-- A passage of a template: text that is written as it is, or text that is hidden in a block comment. -/
inductive Passage where
  | plain (text : List Char)
  /-- The mark follows the opening and this blank. -/
  | hidden (blank : Char) (text : List Char)

namespace Passage

def text : Passage → List Char
  | plain text => text
  | hidden _ text => text

def written : Passage → List Char
  | plain text => text
  | hidden blank text => '/' :: '*' :: blank :: hiddenMark ++ text ++ ['*', '/']

def isPlain : Passage → Bool
  | plain _ => true
  | hidden _ _ => false

/-- A plain text opens no comment, and a hidden one does not close its own. -/
def Fits : Passage → Prop
  | plain text => ¬ ['/', '*'] <:+: text
  | hidden blank text => isBlank blank = true ∧ ¬ ['*', '/'] <:+: text

end Passage

def Apart (p q : Passage) : Prop :=
  ¬ (p.isPlain = true ∧ q.isPlain = true)

theorem head?_written {text : List Char} {passages : List Passage}
    (h : List.IsChain Apart (.plain text :: passages)) :
    (passages.flatMap Passage.written).head? ≠ some '*' := by
  cases passages with
  | nil => simp
  | cons p passages =>
    cases p with
    | plain text => exact absurd ⟨rfl, rfl⟩ (List.isChain_cons_cons.1 h).1
    | hidden blank text => simp [Passage.written]

theorem revealBlocks_written {passages : List Passage} (hfits : ∀ p ∈ passages, p.Fits)
    (hapart : List.IsChain Apart passages) :
    revealBlocks (passages.flatMap Passage.written) = passages.flatMap Passage.text := by
  induction passages with
  | nil => rw [List.flatMap_nil, List.flatMap_nil, revealBlocks]
  | cons p passages ih =>
    have hrest := ih (fun q hq => hfits q (List.mem_cons_of_mem _ hq)) hapart.of_cons
    have hp := hfits p List.mem_cons_self
    rw [List.flatMap_cons, List.flatMap_cons, ← hrest]
    cases p with
    | plain text => exact revealBlocks_plain hp (head?_written hapart)
    | hidden blank text =>
      rw [Passage.written, List.append_assoc]
      exact revealBlocks_hidden hp.1 hp.2 _

/-- **Hidden text comes back.** A template whose plain passages open no comment and whose hidden passages
do not close their own, no two plain passages in a row, becomes the text that was meant if no line of
that has a marked line comment. A text without the mark stays as it is. -/
theorem reveal_written :
    (∀ passages : List Passage, (∀ p ∈ passages, p.Fits) → List.IsChain Apart passages →
      (∀ line ∈ (passages.flatMap Passage.text).splitOn '\n', ¬ MarksLine line) →
      reveal (String.ofList (passages.flatMap Passage.written)) =
        String.ofList (passages.flatMap Passage.text)) ∧
    ∀ code : String, ¬ hiddenMark <:+: code.toList → reveal code = code := by
  constructor
  · intro passages hfits hapart hlines
    rw [reveal, String.toList_ofList, revealBlocks_written hfits hapart, joinLines_revealLine hlines]
  · intro code hcode
    rw [reveal, revealBlocks_of_no_mark hcode, joinLines_revealLine (not_marksLine_of_no_mark hcode),
      String.ofList_toList]

/-- Passages that begin and end with characters of a delimiter. -/
def edgedPassages : List Passage :=
  [.plain ['a', '/'], .hidden ' ' ['*', 'x', '/'], .hidden '\n' [' ', '/', '*', '\n', '*'],
    .plain ['*', '/', ' ', '/', '/']]

/-- Such passages come back. -/
theorem reveal_edgedPassages :
    ((∀ p ∈ edgedPassages, p.Fits) ∧ List.IsChain Apart edgedPassages ∧
      ∀ line ∈ (edgedPassages.flatMap Passage.text).splitOn '\n', ¬ MarksLine line) ∧
    reveal "a//* HBT*x/*//*\nHBT /*\n**/*/ //" = "a/*x/ /*\n**/ //" := by
  have hfits : ∀ p ∈ edgedPassages, p.Fits := by
    simp only [edgedPassages, List.forall_mem_cons, List.not_mem_nil, false_imp_iff, implies_true,
      Passage.Fits]
    decide
  have hapart : List.IsChain Apart edgedPassages := by
    simp [edgedPassages, Apart, Passage.isPlain]
  have hlines : ∀ line ∈ (edgedPassages.flatMap Passage.text).splitOn '\n', ¬ MarksLine line :=
    not_marksLine_of_no_mark (by decide)
  exact ⟨⟨hfits, hapart, hlines⟩, reveal_written.1 edgedPassages hfits hapart hlines⟩

end ChartTemplate
