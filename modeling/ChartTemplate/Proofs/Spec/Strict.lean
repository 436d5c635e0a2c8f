import ChartTemplate.Proofs.Json.Reread
import ChartTemplate.Proofs.Spec.Tokens
import ChartTemplate.Spec.Mapping

/-!
# Strict specifications

`IsStrict` is the grammar of JSON, without comments and trailing commas and with any numbers and escapes:
also those that the reader refuses. A strict text stays as it is when a specification is relaxed
(`IsStrict.relaxChars_eq`), because every comma in it has another entry behind it and every mark of a
comment stands in a text. `literals_relax` says this along with what relaxing does to every other text.
-/

namespace ChartTemplate

open Json.Read

/-! ## The grammar -/

def Blanks (cs : List Char) : Prop :=
  ∀ c ∈ cs, Json.Read.isBlank c = true

/-- The spelling of a number: a sign, a whole part, a fraction and an exponent. -/
def IsNumber (cs : List Char) : Prop :=
  ∃ sign whole fraction exponent, cs = sign ++ whole ++ fraction ++ exponent ∧
    (sign = [] ∨ sign = ['-']) ∧ Whole whole ∧
    (fraction = [] ∨ ∃ ds, fraction = '.' :: ds ∧ ds ≠ [] ∧ Digits ds) ∧
    (exponent = [] ∨ ∃ mark sign ds, exponent = mark :: (sign ++ ds) ∧ (mark = 'e' ∨ mark = 'E') ∧
      (sign = [] ∨ sign = ['+'] ∨ sign = ['-']) ∧ ds ≠ [] ∧ Digits ds)

/-- The spelling of a character between quotes. -/
inductive IsGlyph : List Char → Prop where
  | plain {c : Char} (h : PlainChar c) : IsGlyph [c]
  | short {c : Char} (h : c ∈ ['"', '\\', '/', 'b', 'f', 'n', 'r', 't']) : IsGlyph ['\\', c]
  | code {ds : List Char} (hlength : ds.length = 4) (h : ∀ d ∈ ds, (hexValue? d).isSome = true) :
    IsGlyph ('\\' :: 'u' :: ds)

/-- The spelling of a text: characters between quotes. -/
def IsQuoted (cs : List Char) : Prop :=
  ∃ gs : List (List Char), (∀ g ∈ gs, IsGlyph g) ∧ cs = '"' :: gs.flatten ++ ['"']

/-- The spelling of a key, with the blanks around it. -/
def IsKey (cs : List Char) : Prop :=
  ∃ before quoted after, cs = before ++ quoted ++ after ∧ Blanks before ∧ IsQuoted quoted ∧ Blanks after

/-- The parts of a document: a value, a value with blanks around it, the items of an array that has some,
and the members of an object that has some. -/
inductive Part where
  | value
  | padded
  | items
  | members

/-- The spelling of a part of a document. -/
inductive Spells : Part → List Char → Prop where
  | null : Spells .value ['n', 'u', 'l', 'l']
  | true : Spells .value ['t', 'r', 'u', 'e']
  | false : Spells .value ['f', 'a', 'l', 's', 'e']
  | number {cs : List Char} (h : IsNumber cs) : Spells .value cs
  | text {cs : List Char} (h : IsQuoted cs) : Spells .value cs
  | emptyArray {g : List Char} (hg : Blanks g) : Spells .value ('[' :: (g ++ [']']))
  | array {cs : List Char} (h : Spells .items cs) : Spells .value ('[' :: (cs ++ [']']))
  | emptyObject {g : List Char} (hg : Blanks g) : Spells .value ('{' :: (g ++ ['}']))
  | object {cs : List Char} (h : Spells .members cs) : Spells .value ('{' :: (cs ++ ['}']))
  | padded {before cs after : List Char} (hbefore : Blanks before) (h : Spells .value cs)
    (hafter : Blanks after) : Spells .padded (before ++ cs ++ after)
  | lastItem {cs : List Char} (h : Spells .padded cs) : Spells .items cs
  | moreItems {cs cs' : List Char} (h : Spells .padded cs) (h' : Spells .items cs') :
    Spells .items (cs ++ ',' :: cs')
  | lastMember {key cs : List Char} (hkey : IsKey key) (h : Spells .padded cs) :
    Spells .members (key ++ ':' :: cs)
  | moreMembers {key cs cs' : List Char} (hkey : IsKey key) (h : Spells .padded cs)
    (h' : Spells .members cs') : Spells .members (key ++ ':' :: (cs ++ ',' :: cs'))

/-- A text is strict JSON: a document with blanks around it. -/
def IsStrict (cs : List Char) : Prop :=
  Spells .padded cs

/-! ## What stays as it is -/

/-- A part of a text stays as it is, whatever follows it. -/
def Stays (cs : List Char) : Prop :=
  ∀ rest, relaxChars (cs ++ rest) = cs ++ relaxChars rest

/-- A part of a text begins with something, and not with a closing bracket or brace. -/
def Starts (cs : List Char) : Prop :=
  ∀ rest, closesAfterBlanks (cs ++ rest) = false

theorem Stays.append {cs cs' : List Char} (h : Stays cs) (h' : Stays cs') : Stays (cs ++ cs') := by
  intro rest
  rw [List.append_assoc, h, h', List.append_assoc]

theorem Stays.cons {c : Char} {cs : List Char} (hc : c ≠ '"' ∧ c ≠ '/' ∧ c ≠ ',') (h : Stays cs) :
    Stays (c :: cs) := by
  intro rest
  rw [List.cons_append, relaxChars_plain hc, h, List.cons_append]

theorem Stays.comma {cs : List Char} (h : Stays cs) (hcs : Starts cs) : Stays (',' :: cs) := by
  intro rest
  rw [List.cons_append, relaxChars_of_comma, hcs rest, if_neg Bool.false_ne_true, h, List.cons_append]

theorem stays_nil : Stays [] := fun _ => rfl

theorem stays_blanks {cs : List Char} (h : Blanks cs) : Stays cs :=
  relaxChars_plain_append fun c hc => plain_of_skipped (h c hc)

theorem stays_closer {c : Char} (h : c = ']' ∨ c = '}') : Stays [c] :=
  stays_nil.cons (by rcases h with rfl | rfl <;> decide)

theorem Starts.append {cs : List Char} (h : Starts cs) (cs' : List Char) : Starts (cs ++ cs') := by
  intro rest
  rw [List.append_assoc, h]

theorem Starts.blanks {cs g : List Char} (h : Starts cs) (hg : Blanks g) : Starts (g ++ cs) := by
  intro rest
  have hskip : trimLeft (g ++ cs ++ rest) = trimLeft (cs ++ rest) := by
    rw [List.append_assoc, trimLeft, List.dropWhile_append_of_pos fun c hc => isBlank_of_skipped (hg c hc)]
    rfl
  rw [closesAfterBlanks, hskip]
  exact h rest

theorem starts_of_begins {c : Char} (h : Begins c) (cs : List Char) : Starts (c :: cs) := by
  intro rest
  rw [closesAfterBlanks, List.cons_append, trimLeft, List.dropWhile_cons_of_neg (by simp [h.not_blank])]
  simp [h.ne.1, h.ne.2.1]

/-! ## Numbers and texts -/

theorem IsNumber.numeralChar {cs : List Char} (h : IsNumber cs) : ∀ c ∈ cs, NumeralChar c := by
  obtain ⟨sign, whole, fraction, exponent, rfl, hsign, hwhole, hfraction, hexponent⟩ := h
  have hdigits {ds : List Char} (hds : Digits ds) : ∀ c ∈ ds, NumeralChar c := fun c hc => .inl (hds c hc)
  have hsigned {sign : List Char} (h : sign = [] ∨ sign = ['+'] ∨ sign = ['-']) :
      ∀ c ∈ sign, NumeralChar c := by
    rcases h with rfl | rfl | rfl <;> simp [NumeralChar]
  have hfraction : ∀ c ∈ fraction, NumeralChar c := by
    rcases hfraction with rfl | ⟨ds, rfl, -, hds⟩
    · exact fun _ h => nomatch h
    · exact List.forall_mem_cons.2 ⟨.inr (by decide), hdigits hds⟩
  have hexponent : ∀ c ∈ exponent, NumeralChar c := by
    rcases hexponent with rfl | ⟨mark, sign, ds, rfl, hmark, hsign, -, hds⟩
    · exact fun _ h => nomatch h
    · refine List.forall_mem_cons.2 ⟨?_, List.forall_mem_append.2 ⟨hsigned hsign, hdigits hds⟩⟩
      rcases hmark with rfl | rfl <;> exact .inr (by decide)
  simp only [List.forall_mem_append]
  exact ⟨⟨⟨hsigned (hsign.imp id .inr), hdigits hwhole.digits⟩, hfraction⟩, hexponent⟩

theorem IsNumber.starts {cs : List Char} (h : IsNumber cs) : Starts cs := by
  obtain ⟨sign, whole, fraction, exponent, rfl, hsign, hwhole, -, -⟩ := h
  refine ((?_ : Starts (sign ++ whole)).append fraction).append exponent
  rcases hsign with rfl | rfl
  · cases whole with
    | nil => exact absurd rfl hwhole.ne_nil
    | cons c ds => exact starts_of_begins (.inr (hwhole.digits c List.mem_cons_self)) ds
  · exact starts_of_begins (.inl (by decide)) whole

theorem IsNumber.stays {cs : List Char} (h : IsNumber cs) : Stays cs :=
  relaxChars_numeral h.numeralChar

theorem hexDigit_plain {c : Char} (h : (hexValue? c).isSome = true) : c ≠ '"' ∧ c ≠ '\\' := by
  constructor <;> rintro rfl <;> cases h

theorem IsGlyph.relaxText_append {g : List Char} (h : IsGlyph g) (rest : List Char) :
    relaxText (g ++ rest) = g ++ relaxText rest := by
  cases h with
  | plain h => exact relaxText_plain ⟨h.1, h.2.1⟩ rest
  | short h => exact relaxText.eq_3 _ _
  | code hlength h =>
    rw [List.cons_append, List.cons_append, relaxText,
      relaxText_plain_append (fun c hc => hexDigit_plain (h c hc)), List.cons_append, List.cons_append]

theorem IsQuoted.stays {cs : List Char} (h : IsQuoted cs) : Stays cs := by
  obtain ⟨gs, hgs, rfl⟩ := h
  intro rest
  have hbody : relaxText (gs.flatten ++ '"' :: rest) = gs.flatten ++ '"' :: relaxChars rest := by
    induction gs with
    | nil => rw [List.flatten_nil, List.nil_append, relaxText]; rfl
    | cons g gs ih =>
      obtain ⟨hg, hgs⟩ := List.forall_mem_cons.1 hgs
      rw [List.flatten_cons, List.append_assoc, hg.relaxText_append, ih hgs, List.append_assoc]
  simp only [List.cons_append, List.append_assoc, List.nil_append, relaxChars, hbody]

theorem IsQuoted.starts {cs : List Char} (h : IsQuoted cs) : Starts cs := by
  obtain ⟨gs, -, rfl⟩ := h
  exact starts_of_begins (.inl (by decide)) _

theorem IsKey.stays {cs : List Char} (h : IsKey cs) : Stays cs := by
  obtain ⟨before, quoted, after, rfl, hbefore, hquoted, hafter⟩ := h
  exact ((stays_blanks hbefore).append hquoted.stays).append (stays_blanks hafter)

theorem IsKey.starts {cs : List Char} (h : IsKey cs) : Starts cs := by
  obtain ⟨before, quoted, after, rfl, hbefore, hquoted, -⟩ := h
  exact (hquoted.starts.blanks hbefore).append after

/-! ## Documents -/

theorem Spells.stays {p : Part} {cs : List Char} (h : Spells p cs) : Stays cs ∧ Starts cs := by
  have hcolon : ':' ≠ '"' ∧ ':' ≠ '/' ∧ ':' ≠ ',' := by decide
  have hopen : ('[' ≠ '"' ∧ '[' ≠ '/' ∧ '[' ≠ ',') ∧ '{' ≠ '"' ∧ '{' ≠ '/' ∧ '{' ≠ ',' := by decide
  induction h with
  | null | true | false => exact ⟨relaxChars_plain_append (by simp), starts_of_begins (.inl (by decide)) _⟩
  | number h => exact ⟨h.stays, h.starts⟩
  | text h => exact ⟨h.stays, h.starts⟩
  | emptyArray hg =>
    exact ⟨((stays_blanks hg).append (stays_closer (.inl rfl))).cons hopen.1,
      starts_of_begins (.inl (by decide)) _⟩
  | array _ ih =>
    exact ⟨(ih.1.append (stays_closer (.inl rfl))).cons hopen.1, starts_of_begins (.inl (by decide)) _⟩
  | emptyObject hg =>
    exact ⟨((stays_blanks hg).append (stays_closer (.inr rfl))).cons hopen.2,
      starts_of_begins (.inl (by decide)) _⟩
  | object _ ih =>
    exact ⟨(ih.1.append (stays_closer (.inr rfl))).cons hopen.2, starts_of_begins (.inl (by decide)) _⟩
  | padded hbefore _ hafter ih =>
    exact ⟨((stays_blanks hbefore).append ih.1).append (stays_blanks hafter),
      (ih.2.blanks hbefore).append _⟩
  | lastItem _ ih => exact ih
  | moreItems _ _ ih ih' => exact ⟨ih.1.append (ih'.1.comma ih'.2), ih.2.append _⟩
  | lastMember hkey _ ih => exact ⟨hkey.stays.append (ih.1.cons hcolon), hkey.starts.append _⟩
  | moreMembers hkey _ _ ih ih' =>
    exact ⟨hkey.stays.append ((ih.1.append (ih'.1.comma ih'.2)).cons hcolon), hkey.starts.append _⟩

/-- **Strict JSON** stays as it is. -/
theorem IsStrict.relaxChars_eq {cs : List Char} (h : IsStrict cs) : relaxChars cs = cs := by
  have hstays := (Spells.stays h).1 []
  rwa [List.append_nil, relaxChars, List.append_nil] at hstays

theorem relax_compress (j : Json) : relax j.compress = j.compress := by
  have hchars := relaxChars_chars j []
  rw [List.append_nil, relaxChars, List.append_nil] at hchars
  rw [relax, Json.compress, String.toList_ofList, hchars]

theorem relax_eq_self_iff (text : String) :
    relax text = text ↔ ¬ Opens (quotedTokens text.toList) ∧ ¬ Trails (quotedTokens text.toList) := by
  rw [← relaxChars_eq_self_iff, relax, ← String.toList_inj, String.toList_ofList]

/-- **Relaxing** a specification keeps every text outside of comments, in order, and leaves no mark of a
comment outside of texts. What has neither marks of comments nor trailing commas outside of texts stays as
it is, and nothing else does; so do strict JSON and what is written after the columns of a specification
were mapped. -/
theorem literals_relax (text : String) :
    literals (quotedTokens (relax text).toList) = literals (tokens text.toList) ∧
      ¬ Opens (quotedTokens (relax text).toList) ∧
      (relax text = text ↔ ¬ Opens (quotedTokens text.toList) ∧ ¬ Trails (quotedTokens text.toList)) ∧
      (IsStrict text.toList →
        ¬ Opens (quotedTokens text.toList) ∧ ¬ Trails (quotedTokens text.toList)) ∧
      ∀ (mapping : Mapping) (dataset : Dataset),
        ¬ Opens (quotedTokens (applyMapping text mapping dataset).toList) ∧
          ¬ Trails (quotedTokens (applyMapping text mapping dataset).toList) := by
  have htokens : quotedTokens (relax text).toList = settle (tokens text.toList) := by
    rw [relax, String.toList_ofList, quotedTokens_relaxChars]
  refine ⟨?_, ?_, relax_eq_self_iff text, fun h => ?_, fun mapping dataset => ?_⟩
  · rw [htokens, literals_settle]
  · rw [htokens]
    exact not_opens_settle_tokens _
  · rw [← relaxChars_eq_self_iff]
    exact h.relaxChars_eq
  · rw [← relax_eq_self_iff, applyMapping, relax_compress]

/-- Texts with marks of comments stay as they are in strict JSON. -/
theorem literals_relax_marks :
    relax "[\"//\",1]" = "[\"//\",1]" ∧
      literals (quotedTokens (relax "[\"//\",1]").toList) = [['"', '/', '/', '"']] := by
  have hblanks : Blanks [] := fun _ h => nomatch h
  have htext : Spells .value ['"', '/', '/', '"'] :=
    .text ⟨[['/'], ['/']], by simp only [List.forall_mem_cons]; exact
      ⟨.plain (by decide), .plain (by decide), fun _ h => nomatch h⟩, rfl⟩
  have hnumber : Spells .value ['1'] :=
    .number ⟨[], ['1'], [], [], rfl, .inl rfl,
      ⟨List.forall_mem_singleton.2 rfl, List.cons_ne_nil _ _, .inr (by decide)⟩, .inl rfl, .inl rfl⟩
  have hstrict : IsStrict "[\"//\",1]".toList :=
    .padded hblanks (.array (.moreItems (.padded hblanks htext hblanks)
      (.lastItem (.padded hblanks hnumber hblanks)))) hblanks
  obtain ⟨hliterals, -, hself, hplain, -⟩ := literals_relax "[\"//\",1]"
  refine ⟨hself.2 (hplain hstrict), hliterals.trans ?_⟩
  have htokens : tokens "[\"//\",1]".toList =
      [.char '[', .literal ['"', '/', '/', '"'], .char ',', .char '1', .char ']'] := by
    simp [tokens, splitLiteral]
  rw [htokens]
  rfl

end ChartTemplate
