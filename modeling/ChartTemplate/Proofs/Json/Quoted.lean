import ChartTemplate.Proofs.Json.Reading
import ChartTemplate.Value.Lists

/-!
# Lists of texts in quotes

`Value.quotedList` puts texts between quotes as they are. `parse?_quotedList_iff` says when JSON reads
the texts out of it again: exactly if each of them is `Plain`. That this suffices is `quotedList_eq`, by
which the list of plain texts is the written document. That it is necessary is counted: to read a text
takes its characters and two quotes, and no more only if none of them is escaped or refused (`Takes`).
-/

namespace ChartTemplate

open Json Json.Read

/-! ## Plain texts -/

/-- A character that stands for itself between quotes. -/
def PlainChar (c : Char) : Prop :=
  c ≠ '"' ∧ c ≠ '\\' ∧ 32 ≤ c.toNat

instance : DecidablePred PlainChar := fun _ => inferInstanceAs (Decidable (_ ∧ _ ∧ _))

/-- A text without quotes, backslashes and control characters. -/
def Plain (s : String) : Prop :=
  ∀ c ∈ s.toList, PlainChar c

instance : DecidablePred Plain := fun s => List.decidableBAll PlainChar s.toList

theorem escapeChar_of_plainChar {c : Char} (h : PlainChar c) : escapeChar c = [c] := by
  obtain ⟨hquote, hslash, hcontrol⟩ := h
  have hne (n : Nat) (hn : n < 32) : c.toNat ≠ n := by omega
  have hchar (d : Char) (hd : d.toNat < 32) : c ≠ d := fun hcd => hne _ hd (hcd ▸ rfl)
  rw [escapeChar, if_neg hquote, if_neg hslash, if_neg (hchar _ (by decide)),
    if_neg (hchar _ (by decide)), if_neg (hchar _ (by decide)), if_neg (hne 8 (by decide)),
    if_neg (hne 12 (by decide)), if_neg (by omega)]

theorem quoteChars_of_plain {s : String} (h : Plain s) :
    quoteChars s.toList = '"' :: s.toList ++ ['"'] := by
  have hbody (cs : List Char) (hcs : ∀ c ∈ cs, PlainChar c) : cs.flatMap escapeChar = cs := by
    induction cs with
    | nil => rfl
    | cons c cs ih =>
      rw [List.flatMap_cons, escapeChar_of_plainChar (hcs c List.mem_cons_self),
        ih fun d hd => hcs d (List.mem_cons_of_mem _ hd), List.singleton_append]
  rw [quoteChars, hbody _ h]

/-! ## The characters of lists -/

/-- The characters of some texts between brackets, with commas between them. -/
def bracketChars (ts : List (List Char)) : List Char :=
  '[' :: commaJoin ts ++ [']']

def bareChars (s : String) : List Char :=
  '"' :: s.toList ++ ['"']

theorem toList_joinTexts (ts : List String) :
    (Value.joinTexts "," ts).toList = commaJoin (ts.map String.toList) := by
  induction ts with
  | nil => rfl
  | cons t ts ih =>
    cases ts with
    | nil => rfl
    | cons t' ts => simpa [Value.joinTexts, commaJoin] using ih

theorem toList_bracketed (ts : List String) :
    ("[" ++ Value.joinTexts "," ts ++ "]").toList = bracketChars (ts.map String.toList) := by
  simp [toList_joinTexts, bracketChars]

theorem toList_quotedList (ts : List String) :
    (Value.quotedList ts).toList = bracketChars (ts.map bareChars) := by
  rw [Value.quotedList, toList_bracketed, List.map_map]
  exact congrArg _ (List.map_congr_left fun s _ => by simp [bareChars])

theorem chars_arr_map {α : Type} (f : α → Json) (as : List α) :
    (Json.arr (as.map f)).chars = bracketChars (as.map fun a => (f a).chars) := by
  have hitems : itemTexts (as.map f) = as.map fun a => (f a).chars := by
    induction as with
    | nil => rfl
    | cons a as ih => rw [List.map_cons, itemTexts, ih, List.map_cons]
  rw [chars, hitems, bracketChars]

def textsJson (ts : List String) : Json :=
  .arr (ts.map .str)

theorem length_commaJoin_le (t : List Char) (ts : List (List Char)) :
    (commaJoin (t :: ts)).length ≤ t.length + 1 + (commaJoin ts).length := by
  cases ts with
  | nil =>
    simp only [commaJoin, List.length_nil]
    omega
  | cons t' ts => exact (length_commaJoin t (t' :: ts) (List.cons_ne_nil _ _)).le

theorem chars_textsJson {ts : List String} (h : ∀ s ∈ ts, Plain s) :
    (textsJson ts).chars = bracketChars (ts.map bareChars) := by
  rw [textsJson, chars_arr_map]
  refine congrArg _ (List.map_congr_left fun s hs => ?_)
  rw [chars, quoteChars_of_plain (h s hs), bareChars]

/-! ## What reading takes -/

theorem length_hex4? {cs r : List Char} {n : Nat} (h : hex4? cs = some (n, r)) :
    r.length < cs.length := by
  unfold hex4? at h
  split at h
  · simp only [Option.bind_eq_bind, Option.bind_eq_some_iff, Option.pure_def, Option.some.injEq,
      Prod.mk.injEq] at h
    obtain ⟨_, _, _, _, _, _, _, _, _, rfl⟩ := h
    simp only [List.length_cons]
    omega
  · cases h

theorem length_unicodeEscape? {cs r : List Char} {c : Char} (h : unicodeEscape? cs = some (c, r)) :
    r.length < cs.length := by
  obtain ⟨⟨n, r₁⟩, hfirst, h⟩ := Option.bind_eq_some_iff.1 h
  have hlt := length_hex4? hfirst
  dsimp only at h
  split at h
  · split at h
    · obtain ⟨⟨m, r₂⟩, hsecond, h⟩ := Option.bind_eq_some_iff.1 h
      have hlt₂ := length_hex4? hsecond
      dsimp only at h
      split at h
      · rw [← (Prod.mk.inj (Option.some.inj h)).2]
        simp only [List.length_cons] at hlt
        omega
      · cases h
    · cases h
  · split at h
    · cases h
    · rw [← (Prod.mk.inj (Option.some.inj h)).2]
      exact hlt

theorem length_escape? {cs r : List Char} {c : Char} (h : escape? cs = some (c, r)) :
    r.length < cs.length := by
  unfold escape? at h
  split at h
  case h_9 => exact Nat.lt_succ_of_lt (length_unicodeEscape? h)
  case h_10 => cases h
  all_goals
    cases h
    exact Nat.lt_succ_self _

/-- To read the rest of a text takes its characters and a quote, and more unless they stand for
themselves. -/
theorem length_textBody? {fuel : Nat} {cs s r : List Char} (h : textBody? fuel cs = some (s, r)) :
    s.length + 1 + r.length ≤ cs.length ∧
      (s.length + 1 + r.length = cs.length → ∀ c ∈ s, PlainChar c) := by
  induction fuel generalizing cs s with
  | zero => cases h
  | succ fuel ih =>
    cases cs with
    | nil => cases h
    | cons c cs =>
      rw [textBody?] at h
      split_ifs at h with hquote hslash hcontrol
      · cases h
        exact ⟨by simp only [List.length_nil, List.length_cons]; omega, fun _ => by simp⟩
      · obtain ⟨⟨d, r₁⟩, hescape, h⟩ := Option.bind_eq_some_iff.1 h
        obtain ⟨⟨s', r'⟩, hbody, h⟩ := Option.bind_eq_some_iff.1 h
        cases h
        have hle := (ih hbody).1
        have hlt := length_escape? hescape
        simp only [List.length_cons]
        omega
      · obtain ⟨⟨s', r'⟩, hbody, h⟩ := Option.bind_eq_some_iff.1 h
        cases h
        obtain ⟨hle, hplain⟩ := ih hbody
        simp only [List.length_cons]
        refine ⟨by omega, fun heq => List.forall_mem_cons.2 ⟨?_, hplain (by omega)⟩⟩
        exact ⟨by simpa using hquote, by simpa using hslash, Nat.not_lt.1 hcontrol⟩

theorem length_skipBlanks_le (cs : List Char) : (skipBlanks cs).length ≤ cs.length :=
  (List.dropWhile_sublist _).length_le

theorem eq_of_value?_str {fuel depth : Nat} {cs r : List Char} {s : String}
    (h : value? fuel depth cs = some (str s, r)) :
    ∃ body, skipBlanks cs = '"' :: body ∧
      textBody? (body.length + 1) body = some (s.toList, r) := by
  cases fuel with
  | zero => simp [value?] at h
  | succ fuel =>
    rw [value?] at h
    split at h
    case h_4 body heq =>
      obtain ⟨⟨s', r'⟩, hbody, h⟩ := Option.map_eq_some_iff.1 h
      cases h
      exact ⟨body, heq, by rw [hbody, String.toList_ofList]⟩
    case h_5 | h_6 =>
      split at h
      · cases h
      · split at h
        · cases h
        · obtain ⟨_, _, h⟩ := Option.map_eq_some_iff.1 h
          cases h
    case h_7 =>
      obtain ⟨_, _, h⟩ := Option.map_eq_some_iff.1 h
      cases h
    all_goals cases h

theorem eq_of_value?_arr {fuel depth : Nat} {cs r : List Char} {js : List Json}
    (h : value? fuel depth cs = some (arr js, r)) :
    ∃ body, skipBlanks cs = '[' :: body ∧
      (js = [] ∧ skipBlanks body = ']' :: r ∨
        ∃ fuel depth, items? fuel depth (skipBlanks body) = some (js, r)) := by
  cases fuel with
  | zero => simp [value?] at h
  | succ fuel =>
    rw [value?] at h
    split at h
    case h_5 body heq =>
      split at h
      · cases h
      · refine ⟨body, heq, ?_⟩
        split at h
        · rename_i hclose
          cases h
          exact .inl ⟨rfl, hclose⟩
        · obtain ⟨⟨js', r'⟩, hjs, h⟩ := Option.map_eq_some_iff.1 h
          cases h
          exact .inr ⟨_, _, hjs⟩
    case h_6 =>
      split at h
      · cases h
      · split at h
        · cases h
        · obtain ⟨_, _, h⟩ := Option.map_eq_some_iff.1 h
          cases h
    case h_4 | h_7 =>
      obtain ⟨_, _, h⟩ := Option.map_eq_some_iff.1 h
      cases h
    all_goals cases h

/-- To read the document of `a` takes at least as many characters as `text a` has, and more unless
`plain a`. -/
def Takes {α : Type} (doc : α → Json) (text : α → List Char) (plain : α → Prop) : Prop :=
  ∀ fuel depth cs a r, value? fuel depth cs = some (doc a, r) →
    (text a).length + r.length ≤ cs.length ∧
      ((text a).length + r.length = cs.length → plain a)

theorem takes_str : Takes Json.str bareChars Plain := by
  intro fuel depth cs s r h
  obtain ⟨body, heq, hbody⟩ := eq_of_value?_str h
  obtain ⟨hle, hplain⟩ := length_textBody? hbody
  have hskip := length_skipBlanks_le cs
  rw [heq, List.length_cons] at hskip
  simp only [bareChars, List.length_append, List.length_cons, List.length_nil]
  exact ⟨by omega, fun heq => hplain (by omega)⟩

section

variable {α : Type} {doc : α → Json} {text : α → List Char} {plain : α → Prop}

theorem Takes.items (htakes : Takes doc text plain) {fuel depth : Nat} {cs r : List Char}
    {as : List α} (h : Read.items? fuel depth cs = some (as.map doc, r)) :
    (commaJoin (as.map text)).length + 1 + r.length ≤ cs.length ∧
      ((commaJoin (as.map text)).length + 1 + r.length = cs.length → ∀ a ∈ as, plain a) := by
  induction fuel generalizing cs as with
  | zero => simp [Read.items?] at h
  | succ fuel ih =>
    rw [Read.items?] at h
    obtain ⟨⟨j, r₁⟩, hfirst, h⟩ := Option.bind_eq_some_iff.1 h
    have hskip := length_skipBlanks_le r₁
    dsimp only at h
    split at h
    · rename_i r₂ hmore
      obtain ⟨⟨js, r'⟩, hrest, h⟩ := Option.bind_eq_some_iff.1 h
      obtain ⟨hjs, rfl⟩ := Prod.mk.inj (Option.some.inj h)
      obtain ⟨a, as, rfl, rfl, rfl⟩ := List.map_eq_cons_iff.1 hjs.symm
      obtain ⟨hle, hplain⟩ := htakes _ _ _ _ _ hfirst
      obtain ⟨hle₂, hplain₂⟩ := ih hrest
      have hjoin := length_commaJoin_le (text a) (as.map text)
      rw [hmore, List.length_cons] at hskip
      rw [List.map_cons]
      exact ⟨by omega, fun heq => List.forall_mem_cons.2 ⟨hplain (by omega), hplain₂ (by omega)⟩⟩
    · rename_i r₂ hlast
      obtain ⟨hjs, rfl⟩ := Prod.mk.inj (Option.some.inj h)
      obtain ⟨a, as, rfl, rfl, has⟩ := List.map_eq_cons_iff.1 hjs.symm
      obtain rfl := List.map_eq_nil_iff.1 has
      obtain ⟨hle, hplain⟩ := htakes _ _ _ _ _ hfirst
      rw [hlast, List.length_cons] at hskip
      simp only [List.map_cons, List.map_nil, commaJoin, List.forall_mem_singleton]
      exact ⟨by omega, fun heq => hplain (by omega)⟩
    · cases h

theorem Takes.arr (htakes : Takes doc text plain) :
    Takes (fun as : List α => Json.arr (as.map doc)) (fun as => bracketChars (as.map text))
      fun as => ∀ a ∈ as, plain a := by
  intro fuel depth cs as r h
  obtain ⟨body, heq, hitems⟩ := eq_of_value?_arr h
  have hskip := length_skipBlanks_le cs
  have hbody := length_skipBlanks_le body
  rw [heq, List.length_cons] at hskip
  simp only [bracketChars, List.length_append, List.length_cons, List.length_nil]
  obtain ⟨hnil, hclose⟩ | ⟨fuel, depth, hitems⟩ := hitems
  · obtain rfl := List.map_eq_nil_iff.1 hnil
    rw [hclose, List.length_cons] at hbody
    simp only [List.map_nil, commaJoin, List.length_nil]
    exact ⟨by omega, fun _ a ha => nomatch ha⟩
  · obtain ⟨hle, hplain⟩ := htakes.items hitems
    exact ⟨by omega, fun heq => hplain (by omega)⟩

/-- A text that is no longer than what its document takes is read as it only if all in it is plain. -/
theorem Takes.plain_of_parseChars? (htakes : Takes doc text plain) {a : α}
    (h : parseChars? (text a) = some (doc a)) : plain a := by
  rw [parseChars?] at h
  split at h
  · rename_i j r hvalue
    split at h
    · cases h
      obtain ⟨hle, hplain⟩ := htakes _ _ _ _ _ hvalue
      exact hplain (by omega)
    · cases h
  · cases h

end

/-! ## Lists that are read again -/

theorem reread?_textsJson (ts : List String) (depth : Nat) :
    (textsJson ts).reread? (depth + 1) = some (textsJson ts) := by
  have hitems : rereadItems? (ts.map .str) depth = some (ts.map .str) := by
    induction ts with
    | nil => rfl
    | cons t ts ih =>
      rw [List.map_cons, rereadItems?, ih, Json.reread?]
      · rfl
      all_goals simp
  rw [textsJson, Json.reread?, hitems]
  rfl

theorem distinct_textsJson (ts : List String) : (textsJson ts).Distinct :=
  distinct_arr.2 <| distinctItems_iff.2 fun j hj => by
    obtain ⟨s, -, rfl⟩ := List.mem_map.1 hj
    trivial

/-- **Texts in quotes** are read as the texts exactly if all of them are plain. -/
theorem parse?_quotedList_iff (ts : List String) :
    Json.parse? (Value.quotedList ts) = some (textsJson ts) ↔ ∀ s ∈ ts, Plain s := by
  rw [Json.parse?, toList_quotedList]
  refine ⟨fun h => (Takes.arr takes_str).plain_of_parseChars? h, fun h => ?_⟩
  rw [← chars_textsJson h, parseChars?_chars (distinct_textsJson ts)]
  exact reread?_textsJson ts _

/-- **Rows of texts in quotes** are read as the rows exactly if all of their texts are plain. -/
theorem parse?_quotedRows_iff (rows : List (List String)) :
    Json.parse? ("[" ++ Value.joinTexts "," (rows.map Value.quotedList) ++ "]") =
        some (.arr (rows.map textsJson)) ↔
      ∀ ts ∈ rows, ∀ s ∈ ts, Plain s := by
  have htext : ("[" ++ Value.joinTexts "," (rows.map Value.quotedList) ++ "]").toList =
      bracketChars (rows.map fun ts => bracketChars (ts.map bareChars)) := by
    rw [toList_bracketed, List.map_map]
    exact congrArg _ (List.map_congr_left fun ts _ => toList_quotedList ts)
  rw [Json.parse?, htext]
  refine ⟨fun h => (Takes.arr (Takes.arr takes_str)).plain_of_parseChars? h, fun h => ?_⟩
  have hchars : bracketChars (rows.map fun ts => bracketChars (ts.map bareChars)) =
      (Json.arr (rows.map textsJson)).chars := by
    rw [chars_arr_map]
    exact congrArg _ (List.map_congr_left fun ts hts => (chars_textsJson (h ts hts)).symm)
  have hdistinct : (Json.arr (rows.map textsJson)).Distinct :=
    distinct_arr.2 <| distinctItems_iff.2 fun j hj => by
      obtain ⟨ts, -, rfl⟩ := List.mem_map.1 hj
      exact distinct_textsJson ts
  have hitems (depth : Nat) :
      rereadItems? (rows.map textsJson) (depth + 1) = some (rows.map textsJson) := by
    clear htext hchars hdistinct h
    induction rows with
    | nil => rfl
    | cons ts rows ih =>
      rw [List.map_cons, rereadItems?, ih, reread?_textsJson]
      rfl
  rw [hchars, parseChars?_chars hdistinct, maxDepth, Json.reread?, hitems]
  rfl

end ChartTemplate
