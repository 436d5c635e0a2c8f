import ChartTemplate.Proofs.Json.Quoted

/-!
# Layouts of specifications

A `Layout` is a document with what an author writes between its tokens: blanks, comments, and perhaps a
comma after the last entry of an array or object. It fixes the spelling of numbers and of the characters
of texts too. `relaxChars_layout` says what is left of the comments and commas when a specification is
read: a comment becomes a blank, and a trailing comma is dropped if only blanks follow it.
-/

namespace ChartTemplate

open Json Json.Read

/-! ## Between tokens -/

/-- What may stand between two tokens. -/
inductive Filler where
  | blank (c : Char) (h : Json.Read.isBlank c = true)
  /-- A comment up to the end of its line. -/
  | line (text : List Char) (h : '\n' ∉ text)
  /-- A comment up to its closing mark. -/
  | block (text : List Char) (h : ¬ ['*', '/'] <:+: text)

namespace Filler

def chars : Filler → List Char
  | blank c _ => [c]
  | line text _ => '/' :: '/' :: text ++ ['\n']
  | block text _ => '/' :: '*' :: text ++ ['*', '/']

/-- What is left of a blank or comment. -/
def kept : Filler → Char
  | blank c _ => c
  | line _ _ => '\n'
  | block _ _ => ' '

def isBlank : Filler → Bool
  | blank _ _ => true
  | _ => false

theorem isBlank_kept (f : Filler) : Json.Read.isBlank f.kept = true := by
  cases f with
  | blank c h => exact h
  | _ => rfl

end Filler

/-- All that stands between two tokens. -/
abbrev Gap := List Filler

namespace Gap

def chars (g : Gap) : List Char :=
  g.flatMap Filler.chars

def kept (g : Gap) : List Char :=
  g.map Filler.kept

def isBlank (g : Gap) : Bool :=
  g.all Filler.isBlank

def afterComma (g : Gap) : List Char :=
  ',' :: g.chars

/-- What is left of a trailing comma and the gap after it. -/
def keptAfterComma (g : Gap) : List Char :=
  if g.isBlank then g.kept else ',' :: g.kept

end Gap

/-! ## Tokens -/

/-- A character of a text as it is written between quotes. -/
inductive Glyph where
  | plain (c : Char) (h : PlainChar c)
  /-- A backslash and what stands for the character. -/
  | escape (spelling : List Char) (c : Char) (h : escape? spelling = some (c, []))

namespace Glyph

def char : Glyph → Char
  | plain c _ => c
  | escape _ c _ => c

def chars : Glyph → List Char
  | plain c _ => [c]
  | escape spelling _ _ => '\\' :: spelling

def quote (gs : List Glyph) : List Char :=
  '"' :: gs.flatMap chars ++ ['"']

def text (gs : List Glyph) : String :=
  String.ofList (gs.map char)

end Glyph

/-- A document that is no array or object, as it is written. -/
inductive ScalarLayout where
  | null
  | bool (b : Bool)
  | number (spelling : List Char) (n : JsonNumber) (h : number? spelling = some (n, []))
  | text (gs : List Glyph)

namespace ScalarLayout

def chars : ScalarLayout → List Char
  | null => Json.null.chars
  | bool b => (Json.bool b).chars
  | number spelling _ _ => spelling
  | text gs => Glyph.quote gs

def value : ScalarLayout → Json
  | null => .null
  | bool b => .bool b
  | number _ n _ => .num n
  | text gs => .str (Glyph.text gs)

end ScalarLayout

/-! ## Documents -/

structure KeyLayout where
  before : Gap
  name : List Glyph
  /-- The gap before the colon. -/
  after : Gap

mutual

/-- A document as it is written. -/
inductive Layout where
  | scalar (s : ScalarLayout)
  | emptyArray (g : Gap)
  | array (items : ItemsLayout)
  | emptyObject (g : Gap)
  | object (members : MembersLayout)

/-- The items of an array that has some, with the gaps before and after each, and the gap after a
trailing comma. -/
inductive ItemsLayout where
  | last (before : Gap) (item : Layout) (after : Gap) (trailing : Option Gap)
  | more (before : Gap) (item : Layout) (after : Gap) (rest : ItemsLayout)

inductive MembersLayout where
  | last (key : KeyLayout) (before : Gap) (value : Layout) (after : Gap) (trailing : Option Gap)
  | more (key : KeyLayout) (before : Gap) (value : Layout) (after : Gap) (rest : MembersLayout)

end

mutual

def Layout.value : Layout → Json
  | .scalar s => s.value
  | .emptyArray _ => .arr []
  | .array items => .arr items.values
  | .emptyObject _ => .obj []
  | .object members => .obj members.values

def ItemsLayout.values : ItemsLayout → List Json
  | .last _ item _ _ => [item.value]
  | .more _ item _ rest => item.value :: rest.values

def MembersLayout.values : MembersLayout → List (String × Json)
  | .last key _ v _ _ => [(Glyph.text key.name, v.value)]
  | .more key _ v _ rest => (Glyph.text key.name, v.value) :: rest.values

end

mutual

/-- Whether no trailing comma is followed by a comment. -/
def Layout.isSettled : Layout → Bool
  | .array items => items.isSettled
  | .object members => members.isSettled
  | _ => true

/-- Whether no trailing comma is followed by a comment. -/
def ItemsLayout.isSettled : ItemsLayout → Bool
  | .last _ item _ trailing => item.isSettled && trailing.all Gap.isBlank
  | .more _ item _ rest => item.isSettled && rest.isSettled

/-- Whether no trailing comma is followed by a comment. -/
def MembersLayout.isSettled : MembersLayout → Bool
  | .last _ _ v _ trailing => v.isSettled && trailing.all Gap.isBlank
  | .more _ _ v _ rest => v.isSettled && rest.isSettled

end

section

variable (gap trailing : Gap → List Char)

def KeyLayout.render (k : KeyLayout) : List Char :=
  gap k.before ++ Glyph.quote k.name ++ gap k.after ++ [':']

mutual

/-- The characters of a document, if those of gaps and of trailing commas are given. -/
def Layout.render : Layout → List Char
  | .scalar s => s.chars
  | .emptyArray g => '[' :: gap g ++ [']']
  | .array items => '[' :: items.render ++ [']']
  | .emptyObject g => '{' :: gap g ++ ['}']
  | .object members => '{' :: members.render ++ ['}']

/-- The characters of items up to the closing bracket. -/
def ItemsLayout.render : ItemsLayout → List Char
  | .last before item after comma =>
    gap before ++ item.render ++ gap after ++ comma.elim [] trailing
  | .more before item after rest => gap before ++ item.render ++ gap after ++ ',' :: rest.render

/-- The characters of members up to the closing brace. -/
def MembersLayout.render : MembersLayout → List Char
  | .last key before v after comma =>
    key.render gap ++ gap before ++ v.render ++ gap after ++ comma.elim [] trailing
  | .more key before v after rest =>
    key.render gap ++ gap before ++ v.render ++ gap after ++ ',' :: rest.render

end

end

abbrev Layout.chars (l : Layout) : List Char :=
  l.render Gap.chars Gap.afterComma

abbrev Layout.kept (l : Layout) : List Char :=
  l.render Gap.kept Gap.keptAfterComma

/-! ## What is left of gaps -/

theorem isBlank_of_skipped {c : Char} (h : Json.Read.isBlank c = true) :
    ChartTemplate.isBlank c = true := by
  simp only [Json.Read.isBlank, Bool.or_eq_true, beq_iff_eq] at h
  rcases h with ((rfl | rfl) | rfl) | rfl <;> rfl

theorem plain_of_skipped {c : Char} (h : Json.Read.isBlank c = true) :
    c ≠ '"' ∧ c ≠ '/' ∧ c ≠ ',' := by
  refine ⟨?_, ?_, ?_⟩ <;> rintro rfl <;> cases h

theorem skipLine_append {text : List Char} (h : '\n' ∉ text) (rest : List Char) :
    skipLine (text ++ '\n' :: rest) = '\n' :: rest := by
  rw [skipLine, List.dropWhile_append_of_pos, List.dropWhile_cons_of_neg (by simp)]
  intro c hc
  have hne : c ≠ '\n' := fun hcn => h (hcn ▸ hc)
  simpa using hne

theorem skipBlock_append {text : List Char} (h : ¬ ['*', '/'] <:+: text) {star : Bool}
    (hstar : ∀ r, text = '/' :: r → star = false) (rest : List Char) :
    skipBlock star (text ++ '*' :: '/' :: rest) = rest := by
  induction text generalizing star with
  | nil => simp [skipBlock]
  | cons c text ih =>
    have hopen : (star && c == '/') = false := by
      by_cases hc : c = '/'
      · rw [hstar text (by rw [hc]), Bool.false_and]
      · simp [hc]
    rw [List.cons_append, skipBlock, hopen, if_neg Bool.false_ne_true]
    refine ih (fun hwithin => h (hwithin.trans (List.infix_cons (List.infix_refl _)))) fun r hr => ?_
    by_contra hc
    obtain rfl : c = '*' := by simpa using hc
    exact h ⟨[], r, by rw [hr]; rfl⟩

theorem Filler.relaxChars_chars (f : Filler) (rest : List Char) :
    relaxChars (f.chars ++ rest) = f.kept :: relaxChars rest := by
  cases f with
  | blank c h => exact relaxChars_plain (plain_of_skipped h) rest
  | line text h =>
    rw [chars, List.append_assoc, List.cons_append, List.cons_append, List.singleton_append,
      relaxChars, skipLine_append h, relaxChars_plain (by decide)]
    rfl
  | block text h =>
    rw [chars, List.append_assoc, List.cons_append, List.cons_append, relaxChars, List.cons_append,
      List.cons_append, List.nil_append, skipBlock_append h (fun _ _ => rfl)]
    rfl

theorem Gap.relaxChars_chars (g : Gap) (rest : List Char) :
    relaxChars (g.chars ++ rest) = g.kept ++ relaxChars rest := by
  induction g with
  | nil => rfl
  | cons f g ih =>
    rw [chars, List.flatMap_cons, List.append_assoc, Filler.relaxChars_chars]
    exact congrArg _ ih

theorem Gap.closesAfterBlanks_chars (g : Gap) {c : Char} (hc : ChartTemplate.isBlank c = false)
    (rest : List Char) :
    closesAfterBlanks (g.chars ++ c :: rest) = (g.isBlank && (c == ']' || c == '}')) := by
  have hcomment (r : List Char) : closesAfterBlanks ('/' :: r) = false := rfl
  induction g with
  | nil =>
    rw [chars, List.flatMap_nil, List.nil_append, closesAfterBlanks, trimLeft,
      List.dropWhile_cons_of_neg (by simp [hc])]
    rfl
  | cons f g ih =>
    cases f with
    | blank c' h =>
      have hskip (r : List Char) : closesAfterBlanks (c' :: r) = closesAfterBlanks r := by
        rw [closesAfterBlanks, closesAfterBlanks, trimLeft,
          List.dropWhile_cons_of_pos (isBlank_of_skipped h)]
        rfl
      exact (hskip _).trans ih
    | line text h => exact hcomment _
    | block text h => exact hcomment _

/-! ## What is left of tokens -/

theorem relaxChars_of_comma (cs : List Char) :
    relaxChars (',' :: cs) = if closesAfterBlanks cs then relaxChars cs else ',' :: relaxChars cs := by
  rw [relaxChars]

theorem relaxText_plain_append {cs : List Char} (h : ∀ c ∈ cs, c ≠ '"' ∧ c ≠ '\\')
    (rest : List Char) : relaxText (cs ++ rest) = cs ++ relaxText rest := by
  induction cs with
  | nil => rfl
  | cons c cs ih =>
    rw [List.cons_append, relaxText_plain (h c List.mem_cons_self),
      ih fun c hc => h c (List.mem_cons_of_mem _ hc), List.cons_append]

theorem eq_of_hex4? {cs r : List Char} {n : Nat} (h : hex4? cs = some (n, r)) :
    ∃ ds, cs = ds ++ r ∧ (∀ c ∈ ds, c ≠ '"' ∧ c ≠ '\\') ∧
      ∀ rest, hex4? (ds ++ rest) = some (n, rest) := by
  have hdigit {c : Char} {n : Nat} (h : hexValue? c = some n) : c ≠ '"' ∧ c ≠ '\\' := by
    constructor <;> rintro rfl <;> cases h
  unfold hex4? at h
  split at h
  · rename_i a b c d r'
    simp only [Option.bind_eq_bind, Option.bind_eq_some_iff, Option.pure_def, Option.some.injEq,
      Prod.mk.injEq] at h
    obtain ⟨a', ha, b', hb, c', hc, d', hd, hn, rfl⟩ := h
    refine ⟨[a, b, c, d], rfl, by simp [hdigit ha, hdigit hb, hdigit hc, hdigit hd], fun rest => ?_⟩
    simp [hex4?, ha, hb, hc, hd, hn]
  · cases h

theorem eq_of_unicodeEscape? {cs r : List Char} {c : Char}
    (h : unicodeEscape? cs = some (c, r)) :
    ∃ p, cs = p ++ r ∧ (∀ rest, unicodeEscape? (p ++ rest) = some (c, rest)) ∧
      ∀ rest, relaxText (p ++ rest) = p ++ relaxText rest := by
  obtain ⟨⟨n, r₁⟩, hfirst, hrest⟩ := Option.bind_eq_some_iff.1 h
  obtain ⟨ds, rfl, hds, hread⟩ := eq_of_hex4? hfirst
  clear h
  dsimp only at hrest
  split at hrest
  · rename_i hhigh
    split at hrest
    · rename_i r₂
      obtain ⟨⟨m, r₃⟩, hsecond, hpair⟩ := Option.bind_eq_some_iff.1 hrest
      obtain ⟨ds', rfl, hds', hread'⟩ := eq_of_hex4? hsecond
      dsimp only at hpair
      split at hpair
      · rename_i hlow
        obtain ⟨hc, rfl⟩ := Prod.mk.inj (Option.some.inj hpair)
        refine ⟨ds ++ '\\' :: 'u' :: ds', by simp, fun rest => ?_, fun rest => ?_⟩
        · simp only [List.append_assoc, List.cons_append, unicodeEscape?, hread, hread',
            Option.bind_eq_bind, Option.bind_some, if_pos hhigh, if_pos hlow, hc]
          rfl
        · rw [List.append_assoc, relaxText_plain_append hds, List.cons_append, List.cons_append,
            relaxText, relaxText_plain_append hds', List.append_assoc]
          rfl
      · cases hpair
    · cases hrest
  · rename_i hhigh
    split at hrest
    · cases hrest
    · rename_i hlow
      obtain ⟨hc, rfl⟩ := Prod.mk.inj (Option.some.inj hrest)
      refine ⟨ds, rfl, fun rest => ?_, relaxText_plain_append hds⟩
      simp only [unicodeEscape?, hread, Option.bind_eq_bind, Option.bind_some, if_neg hhigh,
        if_neg hlow, hc]
      rfl

theorem eq_of_escape? {cs r : List Char} {c : Char} (h : escape? cs = some (c, r)) :
    ∃ p, cs = p ++ r ∧ (∀ rest, escape? (p ++ rest) = some (c, rest)) ∧
      ∀ rest, relaxText ('\\' :: (p ++ rest)) = '\\' :: (p ++ relaxText rest) := by
  unfold escape? at h
  split at h
  case h_9 digits =>
    obtain ⟨p, rfl, hread, hrelax⟩ := eq_of_unicodeEscape? h
    refine ⟨'u' :: p, rfl, hread, fun rest => ?_⟩
    rw [List.cons_append, relaxText, hrelax]
    rfl
  case h_10 => cases h
  all_goals
    rename_i r'
    obtain ⟨hc, rfl⟩ := Prod.mk.inj (Option.some.inj h)
    exact ⟨[_], rfl, fun rest => by rw [← hc]; rfl, fun rest => by
      rw [List.singleton_append, relaxText, List.singleton_append]⟩

theorem Glyph.relaxText_chars (g : Glyph) (rest : List Char) :
    relaxText (g.chars ++ rest) = g.chars ++ relaxText rest := by
  cases g with
  | plain c h => exact relaxText_plain ⟨h.1, h.2.1⟩ rest
  | escape spelling c h =>
    obtain ⟨p, hp, -, hrelax⟩ := eq_of_escape? h
    obtain rfl : spelling = p := by simpa using hp
    exact hrelax rest

theorem Glyph.relaxChars_quote (gs : List Glyph) (rest : List Char) :
    relaxChars (quote gs ++ rest) = quote gs ++ relaxChars rest := by
  have hbody : relaxText (gs.flatMap chars ++ '"' :: rest) =
      gs.flatMap chars ++ '"' :: relaxChars rest := by
    induction gs with
    | nil => rw [List.flatMap_nil, List.nil_append, relaxText]; rfl
    | cons g gs ih => rw [List.flatMap_cons, List.append_assoc, relaxText_chars, ih, List.append_assoc]
  simp only [quote, List.cons_append, List.append_assoc, List.nil_append, relaxChars, hbody]

/-! ## What is left of documents -/

theorem ScalarLayout.begins_chars (s : ScalarLayout) : ∃ c cs, s.chars = c :: cs ∧ Begins c := by
  cases s with
  | null => exact Json.Read.begins_chars .null
  | bool b => exact Json.Read.begins_chars (.bool b)
  | number spelling n h =>
    obtain ⟨-, c, cs, hcs, hc⟩ := takes_number? h
    exact ⟨c, cs, hcs, hc.imp (fun h => by simp [h]) id⟩
  | text gs => exact ⟨'"', _, rfl, .inl (by simp)⟩

theorem ScalarLayout.relaxChars_chars (s : ScalarLayout) (rest : List Char) :
    relaxChars (s.chars ++ rest) = s.chars ++ relaxChars rest := by
  cases s with
  | null => exact ChartTemplate.relaxChars_chars .null rest
  | bool b => exact ChartTemplate.relaxChars_chars (.bool b) rest
  | number spelling n h =>
    obtain ⟨⟨p, hp, hchars⟩, -⟩ := takes_number? h
    rw [List.append_nil] at hp
    exact relaxChars_numeral (hp ▸ hchars) rest
  | text gs => exact Glyph.relaxChars_quote gs rest

section

variable (gap trailing : Gap → List Char)

theorem Layout.begins_render (l : Layout) :
    ∃ c cs, l.render gap trailing = c :: cs ∧ Begins c := by
  cases l with
  | scalar s => exact s.begins_chars
  | emptyArray g | array items => exact ⟨'[', _, rfl, .inl (by simp)⟩
  | emptyObject g | object members => exact ⟨'{', _, rfl, .inl (by simp)⟩

theorem ItemsLayout.begins_render (is : ItemsLayout) :
    ∃ g c cs, is.render gap trailing = gap g ++ c :: cs ∧ Begins c := by
  cases is with
  | last before item after comma | more before item after rest =>
    obtain ⟨c, cs, hcs, hc⟩ := item.begins_render gap trailing
    exact ⟨before, c, _, by rw [ItemsLayout.render, hcs]; simp; rfl, hc⟩

theorem MembersLayout.begins_render (ms : MembersLayout) :
    ∃ g cs, ms.render gap trailing = gap g ++ '"' :: cs := by
  cases ms with
  | last key before v after comma | more key before v after rest =>
    exact ⟨key.before, _, by rw [MembersLayout.render, KeyLayout.render, Glyph.quote]; simp; rfl⟩

end

theorem KeyLayout.relaxChars_render (k : KeyLayout) (rest : List Char) :
    relaxChars (k.render Gap.chars ++ rest) = k.render Gap.kept ++ relaxChars rest := by
  simp only [render, List.append_assoc, Gap.relaxChars_chars, Glyph.relaxChars_quote,
    List.singleton_append, relaxChars_plain (show ':' ≠ '"' ∧ ':' ≠ '/' ∧ ':' ≠ ',' by decide)]

theorem relaxChars_comma_entry (g : Gap) {c : Char} (hc : Begins c) (cs : List Char) :
    relaxChars (',' :: (g.chars ++ c :: cs)) = ',' :: relaxChars (g.chars ++ c :: cs) := by
  rw [relaxChars_of_comma, g.closesAfterBlanks_chars hc.not_blank, if_neg]
  simp [hc.ne.1, hc.ne.2.1]

theorem relaxChars_trailing (trailing : Option Gap) {c : Char} (hc : c = ']' ∨ c = '}')
    (rest : List Char) :
    relaxChars (trailing.elim [] Gap.afterComma ++ c :: rest) =
      trailing.elim [] Gap.keptAfterComma ++ c :: relaxChars rest := by
  have hclose : relaxChars (c :: rest) = c :: relaxChars rest :=
    relaxChars_plain (by rcases hc with rfl | rfl <;> decide) rest
  cases trailing with
  | none => exact hclose
  | some g =>
    have hblank : ChartTemplate.isBlank c = false := by rcases hc with rfl | rfl <;> rfl
    have hcloses : (c == ']' || c == '}') = true := by rcases hc with rfl | rfl <;> rfl
    simp only [Option.elim_some, Gap.afterComma, Gap.keptAfterComma, List.cons_append,
      relaxChars_of_comma, g.closesAfterBlanks_chars hblank, hcloses, Bool.and_true,
      g.relaxChars_chars, hclose]
    split <;> rfl

mutual

/-- **What is left of a layout**: comments become blanks, and trailing commas are dropped if only blanks
follow them. -/
theorem relaxChars_layout (l : Layout) (rest : List Char) :
    relaxChars (l.chars ++ rest) = l.kept ++ relaxChars rest := by
  cases l with
  | scalar s => exact s.relaxChars_chars rest
  | emptyArray g =>
    simp only [Layout.chars, Layout.kept, Layout.render, List.cons_append, List.append_assoc,
      List.nil_append]
    rw [relaxChars_plain (by decide), g.relaxChars_chars, relaxChars_plain (by decide)]
  | array items =>
    simp only [Layout.chars, Layout.kept, Layout.render, List.cons_append, List.append_assoc,
      List.nil_append]
    rw [relaxChars_plain (by decide), relaxChars_items items rest]
  | emptyObject g =>
    simp only [Layout.chars, Layout.kept, Layout.render, List.cons_append, List.append_assoc,
      List.nil_append]
    rw [relaxChars_plain (by decide), g.relaxChars_chars, relaxChars_plain (by decide)]
  | object members =>
    simp only [Layout.chars, Layout.kept, Layout.render, List.cons_append, List.append_assoc,
      List.nil_append]
    rw [relaxChars_plain (by decide), relaxChars_members members rest]

theorem relaxChars_items (is : ItemsLayout) (rest : List Char) :
    relaxChars (is.render Gap.chars Gap.afterComma ++ ']' :: rest) =
      is.render Gap.kept Gap.keptAfterComma ++ ']' :: relaxChars rest := by
  cases is with
  | last before item after trailing =>
    simp only [ItemsLayout.render, List.append_assoc]
    rw [before.relaxChars_chars, relaxChars_layout item, after.relaxChars_chars,
      relaxChars_trailing trailing (.inl rfl)]
  | more before item after is =>
    have hrest := relaxChars_items is rest
    obtain ⟨g, c, cs, hcs, hc⟩ := is.begins_render Gap.chars Gap.afterComma
    have hcomma := relaxChars_comma_entry g hc (cs ++ ']' :: rest)
    simp only [ItemsLayout.render, List.append_assoc, List.cons_append]
    rw [before.relaxChars_chars, relaxChars_layout item, after.relaxChars_chars, ← hrest, hcs,
      List.append_assoc, List.cons_append, hcomma]

theorem relaxChars_members (ms : MembersLayout) (rest : List Char) :
    relaxChars (ms.render Gap.chars Gap.afterComma ++ '}' :: rest) =
      ms.render Gap.kept Gap.keptAfterComma ++ '}' :: relaxChars rest := by
  cases ms with
  | last key before v after trailing =>
    simp only [MembersLayout.render, List.append_assoc]
    rw [key.relaxChars_render, before.relaxChars_chars, relaxChars_layout v, after.relaxChars_chars,
      relaxChars_trailing trailing (.inr rfl)]
  | more key before v after ms =>
    have hrest := relaxChars_members ms rest
    obtain ⟨g, cs, hcs⟩ := ms.begins_render Gap.chars Gap.afterComma
    have hcomma := relaxChars_comma_entry g (c := '"') (.inl (by simp)) (cs ++ '}' :: rest)
    simp only [MembersLayout.render, List.append_assoc, List.cons_append]
    rw [key.relaxChars_render, before.relaxChars_chars, relaxChars_layout v, after.relaxChars_chars,
      ← hrest, hcs, List.append_assoc, List.cons_append, hcomma]

end

end ChartTemplate
