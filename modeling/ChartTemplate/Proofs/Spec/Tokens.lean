import ChartTemplate.Proofs.Spec.Layout
import Mathlib.Data.List.Infix

/-!
# Tokens of relaxed texts

A scanner that knows texts between quotes and comments cuts a specification into `tokens`; one that knows
texts alone cuts it into `quotedTokens`. `quotedTokens_relaxChars` says what the second finds after
comments and trailing commas are dropped: the tokens that the first found before, without line comments,
with a space for each block comment, and without trailing commas (`settle`). So no text changes, and no
comment mark comes up where a comment or comma was dropped (`not_opens_settle_tokens`). A specification
that has neither comment marks nor trailing commas outside of texts is left as it is, and no other one
(`relaxChars_eq_self_iff`).
-/

namespace ChartTemplate

/-! ## Cutting a text into tokens -/

inductive Token where
  /-- A text with its quotes. The closing one is missing if the specification ends within the text. -/
  | literal (cs : List Char)
  /-- A comment up to the end of its line. -/
  | line (cs : List Char)
  /-- A comment with its closing mark, if it has one. -/
  | block (cs : List Char)
  /-- Any other character. -/
  | char (c : Char)
deriving DecidableEq, Repr

namespace Token

def chars : Token → List Char
  | literal cs | line cs | block cs => cs
  | char c => [c]

def literal? : Token → Option (List Char)
  | literal cs => some cs
  | _ => none

def isComment : Token → Bool
  | line _ | block _ => true
  | _ => false

end Token

/-- The texts among tokens, in order. -/
def literals (ts : List Token) : List (List Char) :=
  ts.filterMap Token.literal?

/-- Cuts after the closing quote of a text that is open. A backslash protects one character. -/
def splitLiteral : List Char → List Char × List Char
  | [] => ([], [])
  | '"' :: cs => (['"'], cs)
  | '\\' :: c :: cs => ('\\' :: c :: (splitLiteral cs).1, (splitLiteral cs).2)
  | c :: cs => (c :: (splitLiteral cs).1, (splitLiteral cs).2)

/-- The characters of a block comment that is open, up to its closing mark. The flag says that the last
character was an asterisk. -/
def takeBlock : Bool → List Char → List Char
  | _, [] => []
  | star, c :: cs => if star && c == '/' then [c] else c :: takeBlock (c == '*') cs

theorem splitLiteral_append (cs : List Char) : (splitLiteral cs).1 ++ (splitLiteral cs).2 = cs := by
  fun_induction splitLiteral cs <;> simp_all

theorem takeBlock_append (star : Bool) (cs : List Char) : takeBlock star cs ++ skipBlock star cs = cs := by
  induction cs generalizing star with
  | nil => rfl
  | cons c cs ih =>
    rw [takeBlock, skipBlock]
    split
    · rfl
    · rw [List.cons_append, ih]

theorem takeLine_append (cs : List Char) : (cs.takeWhile fun c => c != '\n') ++ skipLine cs = cs :=
  List.takeWhile_append_dropWhile

theorem length_splitLiteral_le (cs : List Char) : (splitLiteral cs).2.length ≤ cs.length := by
  have h := congrArg List.length (splitLiteral_append cs)
  rw [List.length_append] at h
  omega

/-- The tokens of a specification whose comments are not known. -/
def quotedTokens : List Char → List Token
  | [] => []
  | '"' :: cs => .literal ('"' :: (splitLiteral cs).1) :: quotedTokens (splitLiteral cs).2
  | c :: cs => .char c :: quotedTokens cs
termination_by cs => cs.length
decreasing_by
  all_goals simp only [List.length_cons]
  all_goals try have := length_splitLiteral_le cs
  all_goals omega

def tokens : List Char → List Token
  | [] => []
  | '"' :: cs => .literal ('"' :: (splitLiteral cs).1) :: tokens (splitLiteral cs).2
  | '/' :: '/' :: cs => .line ('/' :: '/' :: cs.takeWhile fun c => c != '\n') :: tokens (skipLine cs)
  | '/' :: '*' :: cs => .block ('/' :: '*' :: takeBlock false cs) :: tokens (skipBlock false cs)
  | c :: cs => .char c :: tokens cs
termination_by cs => cs.length
decreasing_by
  all_goals simp only [List.length_cons]
  all_goals try have := length_splitLiteral_le cs
  all_goals try have := length_skipLine_le cs
  all_goals try have := length_skipBlock_le false cs
  all_goals omega

theorem flatMap_chars_tokens (cs : List Char) : (tokens cs).flatMap Token.chars = cs := by
  fun_induction tokens cs with
  | case1 => rfl
  | case2 cs ih => simp [Token.chars, ih, splitLiteral_append]
  | case3 cs ih => simp [Token.chars, ih, takeLine_append]
  | case4 cs ih => simp [Token.chars, ih, takeBlock_append]
  | case5 c cs _ _ _ ih => simp [Token.chars, ih]

theorem flatMap_chars_quotedTokens (cs : List Char) : (quotedTokens cs).flatMap Token.chars = cs := by
  fun_induction quotedTokens cs with
  | case1 => rfl
  | case2 cs ih => simp [Token.chars, ih, splitLiteral_append]
  | case3 c cs _ ih => simp [Token.chars, ih]

theorem quotedTokens_injective : Function.Injective quotedTokens := fun cs cs' h => by
  rw [← flatMap_chars_quotedTokens cs, h, flatMap_chars_quotedTokens]

theorem quotedTokens_char {c : Char} (h : c ≠ '"') (cs : List Char) :
    quotedTokens (c :: cs) = .char c :: quotedTokens cs := by
  rw [quotedTokens]
  exact h

/-! ## Dropping tokens -/

/-- Whether blanks and then a closing bracket or brace come first among tokens. -/
def closes : List Token → Bool
  | .char c :: ts => if isBlank c then closes ts else c == ']' || c == '}'
  | _ => false

/-- Tokens without line comments and trailing commas, and with a space for each block comment. -/
def settle : List Token → List Token
  | [] => []
  | .line _ :: ts => settle ts
  | .block _ :: ts => .char ' ' :: settle ts
  | .char ',' :: ts => if closes ts then settle ts else .char ',' :: settle ts
  | t :: ts => t :: settle ts

/-- A comment mark stands outside of texts. -/
def Opens (ts : List Token) : Prop :=
  [.char '/', .char '/'] <:+: ts ∨ [.char '/', .char '*'] <:+: ts

/-- A comma outside of texts has nothing but blanks between it and a closing bracket or brace. -/
def Trails (ts : List Token) : Prop :=
  ∃ (blanks : List Char) (c : Char), (∀ b ∈ blanks, isBlank b = true) ∧ (c = ']' ∨ c = '}') ∧
    .char ',' :: (blanks.map .char ++ [.char c]) <:+: ts

theorem settle_comma (ts : List Token) :
    settle (.char ',' :: ts) = if closes ts then settle ts else .char ',' :: settle ts := by
  rw [settle]

theorem settle_char {c : Char} (h : c ≠ ',') (ts : List Token) :
    settle (.char c :: ts) = .char c :: settle ts := by
  rw [settle] <;> simp [h]

theorem literals_settle (ts : List Token) : literals (settle ts) = literals ts := by
  fun_induction settle ts <;> simp_all [literals, Token.literal?, List.filterMap_cons]

theorem length_settle_le (ts : List Token) : (settle ts).length ≤ ts.length := by
  fun_induction settle ts <;> simp <;> omega

theorem chars_prefix_cons_iff (blanks : List Char) (c : Char) (t : Token) (ts : List Token) :
    blanks.map .char ++ [.char c] <+: t :: ts ↔ (blanks = [] ∧ t = .char c) ∨
      ∃ b blanks', blanks = b :: blanks' ∧ t = .char b ∧ blanks'.map .char ++ [.char c] <+: ts := by
  cases blanks with
  | nil => simp [eq_comm]
  | cons b blanks => simp [eq_comm, List.cons_prefix_cons]

theorem closes_iff (ts : List Token) :
    closes ts = true ↔ ∃ (blanks : List Char) (c : Char), (∀ b ∈ blanks, isBlank b = true) ∧
      (c = ']' ∨ c = '}') ∧ blanks.map .char ++ [.char c] <+: ts := by
  fun_induction closes ts with
  | case1 b ts hb ih =>
    refine ih.trans ?_
    constructor
    · rintro ⟨blanks, c, hblanks, hc, hprefix⟩
      exact ⟨b :: blanks, c, List.forall_mem_cons.2 ⟨hb, hblanks⟩, hc,
        (List.prefix_cons_inj _).2 hprefix⟩
    · rintro ⟨blanks, c, hblanks, hc, hprefix⟩
      rcases (chars_prefix_cons_iff ..).1 hprefix with ⟨-, ⟨⟩⟩ | ⟨b', blanks, rfl, -, hprefix⟩
      · rcases hc with rfl | rfl <;> cases hb
      · exact ⟨blanks, c, (List.forall_mem_cons.1 hblanks).2, hc, hprefix⟩
  | case2 c ts hblank =>
    rw [Bool.or_eq_true, beq_iff_eq, beq_iff_eq]
    constructor
    · exact fun hc => ⟨[], c, by simp, hc, by simp⟩
    · rintro ⟨blanks, c', hblanks, hc', hprefix⟩
      rcases (chars_prefix_cons_iff ..).1 hprefix with ⟨-, ⟨⟩⟩ | ⟨b, blanks, rfl, ⟨⟩, -⟩
      · exact hc'
      · exact absurd (hblanks _ List.mem_cons_self) hblank
  | case3 ts hts =>
    constructor
    · exact fun h => nomatch h
    · rintro ⟨blanks, c, -, -, hprefix⟩
      obtain ⟨ts', rfl⟩ := hprefix
      cases blanks with
      | nil => exact absurd rfl (hts c ts')
      | cons b blanks => exact absurd rfl (hts b _)

theorem trails_cons_iff (t : Token) (ts : List Token) :
    Trails (t :: ts) ↔ (t = .char ',' ∧ closes ts = true) ∨ Trails ts := by
  rw [closes_iff]
  constructor
  · rintro ⟨blanks, c, hblanks, hc, hwithin⟩
    rcases List.infix_cons_iff.1 hwithin with hprefix | hwithin
    · obtain ⟨ht, hprefix⟩ := List.cons_prefix_cons.1 hprefix
      exact .inl ⟨ht.symm, blanks, c, hblanks, hc, hprefix⟩
    · exact .inr ⟨blanks, c, hblanks, hc, hwithin⟩
  · rintro (⟨rfl, blanks, c, hblanks, hc, hprefix⟩ | ⟨blanks, c, hblanks, hc, hwithin⟩)
    · exact ⟨blanks, c, hblanks, hc, (List.cons_prefix_cons.2 ⟨rfl, hprefix⟩).isInfix⟩
    · exact ⟨blanks, c, hblanks, hc, List.infix_cons hwithin⟩

/-- Tokens are kept as they are exactly if there are neither comments nor trailing commas among
them. -/
theorem settle_eq_self_iff (ts : List Token) :
    settle ts = ts ↔ (∀ t ∈ ts, t.isComment = false) ∧ ¬ Trails ts := by
  have hlength (t : Token) (ts : List Token) : settle ts ≠ t :: ts := fun h => by
    have hle := length_settle_le ts
    rw [h, List.length_cons] at hle
    omega
  fun_induction settle ts with
  | case1 => simp [Trails]
  | case2 cs ts ih => simp [hlength, Token.isComment]
  | case3 cs ts ih => simp [Token.isComment]
  | case4 ts h ih => simp [hlength, trails_cons_iff, h]
  | case5 ts h ih => simp [ih, trails_cons_iff, h, Token.isComment]
  | case6 t ts hline hblock hcomma ih =>
    have ht : t.isComment = false := by
      cases t with
      | line cs => exact absurd rfl (hline cs)
      | block cs => exact absurd rfl (hblock cs)
      | _ => rfl
    simp [ih, trails_cons_iff, ht, show t ≠ .char ',' from hcomma]

/-! ## Tokens of what is left -/

theorem relaxText_eq (cs : List Char) :
    relaxText cs = (splitLiteral cs).1 ++ relaxChars (splitLiteral cs).2 := by
  fun_induction splitLiteral cs with
  | case1 => rw [relaxText, relaxChars]; rfl
  | case2 cs => rw [relaxText]; rfl
  | case3 c cs ih => rw [relaxText, ih]; rfl
  | case4 c cs hquote hpair ih =>
    rw [relaxText, ih, List.cons_append]
    · exact hquote
    · exact hpair

/-- A text is found again before whatever follows it. What it is that follows matters only if the text is
closed, so it is given for the rest of the specification, and as nothing for nothing. -/
theorem splitLiteral_splitLiteral {f : List Char → List Char} (hf : f [] = []) (cs : List Char) :
    splitLiteral ((splitLiteral cs).1 ++ f (splitLiteral cs).2) =
      ((splitLiteral cs).1, f (splitLiteral cs).2) := by
  fun_induction splitLiteral cs with
  | case1 => rw [hf]; rfl
  | case2 cs => rw [List.singleton_append, splitLiteral]
  | case3 c cs ih => rw [List.cons_append, List.cons_append, splitLiteral, ih]
  | case4 c cs hquote hpair ih =>
    rw [List.cons_append, splitLiteral, ih]
    · exact hquote
    · -- a backslash without a character to protect ends the specification
      intro d r hc hr
      cases cs with
      | nil => rw [splitLiteral, hf] at hr; cases hr
      | cons c' cs => exact hpair c' cs hc rfl

theorem closes_tokens (cs : List Char) : closes (tokens cs) = closesAfterBlanks cs := by
  fun_induction tokens cs with
  | case1 => rfl
  | case2 cs ih | case3 cs ih | case4 cs ih => rfl
  | case5 c cs _ _ _ ih =>
    rw [closes, ih, closesAfterBlanks, closesAfterBlanks, trimLeft, trimLeft]
    split
    · next hblank => rw [List.dropWhile_cons_of_pos hblank]
    · next hblank => rw [List.dropWhile_cons_of_neg hblank]

/-- **The tokens of what is left**, once comments and trailing commas are dropped: the tokens there were
before, without them. -/
theorem quotedTokens_relaxChars (cs : List Char) : quotedTokens (relaxChars cs) = settle (tokens cs) := by
  fun_induction tokens cs with
  | case1 => rw [relaxChars, quotedTokens, settle]
  | case2 cs ih =>
    rw [relaxChars, relaxText_eq, quotedTokens, splitLiteral_splitLiteral (by rw [relaxChars]), ih, settle]
    all_goals simp
  | case3 cs ih => rw [relaxChars, ih, settle]
  | case4 cs ih => rw [relaxChars, quotedTokens_char (by decide), ih, settle]
  | case5 c cs hquote hline hblock ih =>
    by_cases hc : c = ','
    · subst hc
      rw [relaxChars_of_comma, settle_comma, closes_tokens]
      split
      · exact ih
      · rw [quotedTokens_char (by decide), ih]
    · rw [relaxChars, quotedTokens_char hquote, ih, settle_char hc]
      all_goals first | exact hquote | exact hline | exact hblock | exact hc

/-- A comma that is dropped leaves a blank, bracket or brace in its place. -/
theorem exists_of_closes {ts : List Token} (h : closes ts = true) :
    ∃ c ts', ts = .char c :: ts' ∧ c ≠ ',' ∧ c ≠ '/' ∧ c ≠ '*' := by
  revert h
  fun_cases closes ts with
  | case1 c ts hblank =>
    refine fun _ => ⟨c, ts, rfl, ?_, ?_, ?_⟩ <;> rintro rfl <;> cases hblank
  | case2 c ts hblank =>
    refine fun h => ⟨c, ts, rfl, ?_, ?_, ?_⟩ <;> rintro rfl <;> cases h
  | case3 => exact fun h => nomatch h

/-- What is left of a text begins with a comment mark only if the text begins with one of its characters. -/
theorem head?_settle_tokens {cs : List Char} (hcs : ∀ c, cs.head? = some c → c ≠ '/' ∧ c ≠ '*') {c : Char}
    (h : (settle (tokens cs)).head? = some (.char c)) : c ≠ '/' ∧ c ≠ '*' := by
  revert h
  fun_cases tokens cs with
  | case1 => exact fun h => nomatch h
  | case2 cs =>
    rw [settle]
    · exact fun h => nomatch h
    all_goals simp
  | case3 cs | case4 cs => exact absurd rfl (hcs '/' rfl).1
  | case5 d cs =>
    by_cases hd : d = ','
    · subst hd
      rw [settle_comma]
      split
      · next hcloses =>
        obtain ⟨e, ts, hts, hcomma, hmarks⟩ := exists_of_closes hcloses
        rw [hts, settle_char hcomma]
        rintro ⟨⟩
        exact hmarks
      · rintro ⟨⟩
        decide
    · rw [settle_char hd]
      intro h
      obtain rfl : d = c := by simpa using h
      exact hcs d rfl

theorem opens_cons_iff (t : Token) (ts : List Token) :
    Opens (t :: ts) ↔
      (t = .char '/' ∧ ∃ c, ts.head? = some (.char c) ∧ (c = '/' ∨ c = '*')) ∨ Opens ts := by
  have hsingle (q : Token) : [q] <+: ts ↔ ts.head? = some q := by cases ts <;> simp [eq_comm]
  rw [Opens, Opens, List.infix_cons_iff, List.infix_cons_iff, List.cons_prefix_cons, List.cons_prefix_cons,
    hsingle, hsingle]
  grind

/-- **No comment mark is left** outside of texts. -/
theorem not_opens_settle_tokens (cs : List Char) : ¬ Opens (settle (tokens cs)) := by
  fun_induction tokens cs with
  | case1 => simp [settle, Opens]
  | case2 cs ih =>
    rw [settle, opens_cons_iff]
    · simpa using ih
    all_goals simp
  | case3 cs ih => rwa [settle]
  | case4 cs ih =>
    rw [settle, opens_cons_iff]
    simpa using ih
  | case5 c cs hquote hline hblock ih =>
    by_cases hc : c = ','
    · subst hc
      rw [settle_comma]
      split
      · exact ih
      · rw [opens_cons_iff]
        simpa using ih
    · rw [settle_char hc, opens_cons_iff]
      rintro (⟨hslash, d, hd, hmark⟩ | h)
      · obtain rfl : c = '/' := by simpa using hslash
        have hne := head?_settle_tokens (fun e he => ?_) hd
        · exact hmark.elim hne.1 hne.2
        -- the slash would begin a comment
        obtain ⟨cs', rfl⟩ := List.head?_eq_some_iff.1 he
        exact ⟨fun h => hline cs' rfl (by rw [h]), fun h => hblock cs' rfl (by rw [h])⟩
      · exact ih h

/-! ## What is left as it is -/

theorem tokens_of_not_opens {cs : List Char} (h : ¬ Opens (quotedTokens cs)) :
    tokens cs = quotedTokens cs := by
  fun_induction tokens cs with
  | case1 => rw [quotedTokens]
  | case2 cs ih =>
    rw [quotedTokens, opens_cons_iff, not_or] at h
    rw [quotedTokens, ih h.2]
  | case3 cs ih =>
    rw [quotedTokens_char (by decide), quotedTokens_char (by decide)] at h
    exact absurd (.inl (List.prefix_append [Token.char '/', .char '/'] _).isInfix) h
  | case4 cs ih =>
    rw [quotedTokens_char (by decide), quotedTokens_char (by decide)] at h
    exact absurd (.inr (List.prefix_append [Token.char '/', .char '*'] _).isInfix) h
  | case5 c cs hquote _ _ ih =>
    rw [quotedTokens_char hquote, opens_cons_iff, not_or] at h
    rw [quotedTokens_char hquote, ih h.2]

theorem isComment_of_mem_quotedTokens {cs : List Char} {t : Token} (h : t ∈ quotedTokens cs) :
    t.isComment = false := by
  fun_induction quotedTokens cs with
  | case1 => cases h
  | case2 cs ih | case3 c cs _ ih =>
    rcases List.mem_cons.1 h with rfl | h
    · rfl
    · exact ih h

/-- **What is left as it is**: the specifications that have neither comment marks nor trailing commas
outside of texts. -/
theorem relaxChars_eq_self_iff (cs : List Char) :
    relaxChars cs = cs ↔ ¬ Opens (quotedTokens cs) ∧ ¬ Trails (quotedTokens cs) := by
  rw [← quotedTokens_injective.eq_iff, quotedTokens_relaxChars]
  constructor
  · intro h
    have hopens : ¬ Opens (quotedTokens cs) := h ▸ not_opens_settle_tokens cs
    rw [tokens_of_not_opens hopens, settle_eq_self_iff] at h
    exact ⟨hopens, h.2⟩
  · rintro ⟨hopens, htrails⟩
    rw [tokens_of_not_opens hopens, settle_eq_self_iff]
    exact ⟨fun t ht => isComment_of_mem_quotedTokens ht, htrails⟩

end ChartTemplate
