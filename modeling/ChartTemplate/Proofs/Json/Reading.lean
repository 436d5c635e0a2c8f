import ChartTemplate.Proofs.Json.Digits
import ChartTemplate.Proofs.Json.Distinct

/-!
# Reading what was written

`parseChars?_chars` : the compact text of a document is read as the document again, up to its numbers,
if its containers are nested no deeper than the reader allows. `Json.reread?` says what is read, and
`safeParse_compress` that a specification that was written is read in the same way: its text has
neither comments nor trailing commas.
-/

namespace ChartTemplate

open Entries (keys)

/-! ## What is read -/

mutual

/-- What the text of a document is read as, with containers nested at most so deep. -/
def Json.reread? : Json → Nat → Option Json
  | .num n, _ => (Json.rereadNumber? n).map .num
  | .arr _, 0 => none
  | .arr js, depth + 1 => (rereadItems? js depth).map .arr
  | .obj _, 0 => none
  | .obj ms, depth + 1 => (rereadMembers? ms depth).map .obj
  | j, _ => some j

def rereadItems? : List Json → Nat → Option (List Json)
  | [], _ => some []
  | j :: js, depth => do
    let j ← j.reread? depth
    let js ← rereadItems? js depth
    pure (j :: js)

def rereadMembers? : List (String × Json) → Nat → Option (List (String × Json))
  | [], _ => some []
  | (k, j) :: ms, depth => do
    let j ← j.reread? depth
    let ms ← rereadMembers? ms depth
    pure ((k, j) :: ms)

end

theorem Json.reread?_eq_some {j j' : Json} {depth : Nat} (h : j.reread? depth = some j') :
    (∃ n n', j = .num n ∧ j' = .num n') ∨
      (∃ js js' d, j = .arr js ∧ j' = .arr js' ∧ rereadItems? js d = some js') ∨
      (∃ ms ms' d, j = .obj ms ∧ j' = .obj ms' ∧ rereadMembers? ms d = some ms') ∨
      j' = j := by
  cases j with
  | num n =>
    obtain ⟨n', -, rfl⟩ := Option.map_eq_some_iff.1 h
    exact .inl ⟨n, n', rfl, rfl⟩
  | arr js =>
    cases depth with
    | zero => cases h
    | succ depth =>
      obtain ⟨js', hjs, rfl⟩ := Option.map_eq_some_iff.1 h
      exact .inr (.inl ⟨js, js', depth, rfl, rfl, hjs⟩)
  | obj ms =>
    cases depth with
    | zero => cases h
    | succ depth =>
      obtain ⟨ms', hms, rfl⟩ := Option.map_eq_some_iff.1 h
      exact .inr (.inr (.inl ⟨ms, ms', depth, rfl, rfl, hms⟩))
  | _ => cases depth <;> exact .inr (.inr (.inr (Option.some.inj h).symm))

theorem keys_rereadMembers? {ms ms' : Members} {depth : Nat}
    (h : rereadMembers? ms depth = some ms') : keys ms' = keys ms := by
  induction ms generalizing ms' with
  | nil => rw [← Option.some.inj h]
  | cons m ms ih =>
    obtain ⟨j, -, h⟩ := Option.bind_eq_some_iff.1 h
    obtain ⟨rest, hrest, h⟩ := Option.bind_eq_some_iff.1 h
    rw [← Option.some.inj h, Entries.keys_cons, Entries.keys_cons, ih hrest]

namespace Json

/-! ## Texts -/

namespace Read

theorem hexValue?_hexDigit : ∀ n < 16, hexValue? (hexDigit n) = some n := by decide

theorem unicodeEscape?_control {n : Nat} (h : n < 32) (r : List Char) :
    unicodeEscape? ('0' :: '0' :: hexDigit (n / 16) :: hexDigit (n % 16) :: r) =
      some (Char.ofNat n, r) := by
  have hzero : hexValue? '0' = some 0 := rfl
  have hhex : hex4? ('0' :: '0' :: hexDigit (n / 16) :: hexDigit (n % 16) :: r) = some (n, r) := by
    simp only [hex4?, hzero, hexValue?_hexDigit _ (show n / 16 < 16 by omega),
      hexValue?_hexDigit _ (show n % 16 < 16 by omega), Option.bind_eq_bind, Option.bind_some]
    rw [show ((0 * 16 + 0) * 16 + n / 16) * 16 + n % 16 = n by omega]
    rfl
  simp only [unicodeEscape?, hhex, Option.bind_eq_bind, Option.bind_some]
  rw [if_neg (by omega), if_neg (by omega)]
  rfl

theorem textBody?_escape {cs r : List Char} {c : Char} (h : escape? cs = some (c, r)) (fuel : Nat) :
    textBody? (fuel + 1) ('\\' :: cs) = (textBody? fuel r).map fun p => (c :: p.1, p.2) := by
  rw [textBody?, if_neg (by decide), if_pos (by decide), h]
  cases hbody : textBody? fuel r <;> simp [hbody]

theorem textBody?_escapeChar (fuel : Nat) (c : Char) (r : List Char) :
    textBody? (fuel + 1) (escapeChar c ++ r) =
      (textBody? fuel r).map fun p => (c :: p.1, p.2) := by
  unfold escapeChar
  split_ifs with hquote hslash hline hreturn htab hback hfeed hcontrol
  · subst hquote; exact textBody?_escape rfl fuel
  · subst hslash; exact textBody?_escape rfl fuel
  · subst hline; exact textBody?_escape rfl fuel
  · subst hreturn; exact textBody?_escape rfl fuel
  · subst htab; exact textBody?_escape rfl fuel
  · have hc : escape? ('b' :: r) = some (c, r) := by rw [← Char.ofNat_toNat c, hback]; rfl
    exact textBody?_escape hc fuel
  · have hc : escape? ('f' :: r) = some (c, r) := by rw [← Char.ofNat_toNat c, hfeed]; rfl
    exact textBody?_escape hc fuel
  · have hc : escape? ('u' :: '0' :: '0' :: hexDigit (c.toNat / 16) :: hexDigit (c.toNat % 16) :: r) =
        some (c, r) := by
      rw [escape?, unicodeEscape?_control hcontrol, Char.ofNat_toNat]
    exact textBody?_escape hc fuel
  · rw [List.singleton_append, textBody?, if_neg (by simpa using hquote),
      if_neg (by simpa using hslash), if_neg hcontrol]
    cases textBody? fuel r <;> rfl

theorem textBody?_flatMap (s : List Char) (rest : List Char) (fuel : Nat) (h : s.length < fuel) :
    textBody? fuel (s.flatMap escapeChar ++ '"' :: rest) = some (s, rest) := by
  induction s generalizing fuel with
  | nil =>
    obtain ⟨fuel, rfl⟩ : ∃ n, fuel = n + 1 := ⟨fuel - 1, by simp at h; omega⟩
    rfl
  | cons c s ih =>
    obtain ⟨fuel, rfl⟩ : ∃ n, fuel = n + 1 := ⟨fuel - 1, by simp at h; omega⟩
    rw [List.flatMap_cons, List.append_assoc, textBody?_escapeChar, ih fuel (by simpa using h)]
    rfl

/-! ## Where a document begins -/

/-- The characters with which a written document begins. -/
def Begins (c : Char) : Prop :=
  c ∈ ['n', 't', 'f', '"', '[', '{', '-'] ∨ c.isDigit = true

theorem Begins.not_blank {c : Char} (h : Begins c) : ChartTemplate.isBlank c = false := by
  rcases h with h | h
  · simp only [List.mem_cons, List.not_mem_nil, or_false] at h
    rcases h with rfl | rfl | rfl | rfl | rfl | rfl | rfl <;> rfl
  · have := isDigit_toNat h
    simp only [ChartTemplate.isBlank, Bool.or_eq_false_iff, Bool.and_eq_false_iff,
      decide_eq_false_iff_not, beq_eq_false_iff_ne]
    omega

theorem Begins.not_skipped {c : Char} (h : Begins c) : isBlank c = false := by
  have hblank := h.not_blank
  simp only [isBlank, Bool.or_eq_false_iff, beq_eq_false_iff_ne]
  refine ⟨⟨⟨?_, ?_⟩, ?_⟩, ?_⟩ <;> rintro rfl <;> cases hblank

theorem Begins.ne {c : Char} (h : Begins c) : c ≠ ']' ∧ c ≠ '}' ∧ c ≠ ',' := by
  refine ⟨?_, ?_, ?_⟩ <;> rintro rfl <;> simp [Begins] at h

theorem begins_numberChars (n : JsonNumber) :
    ∃ c cs, numberChars n = c :: cs ∧ (c = '-' ∨ c.isDigit = true) := by
  rcases numeral_numberChars n with ⟨whole, tail, hcs, hne, hdigits, -⟩ | ⟨body, hcs, -⟩
  · cases whole with
    | nil => exact absurd rfl hne
    | cons c whole => exact ⟨c, _, hcs, .inr (hdigits c List.mem_cons_self)⟩
  · exact ⟨'-', _, hcs, .inl rfl⟩

theorem chars_null : chars null = ['n', 'u', 'l', 'l'] := rfl

theorem chars_true : chars (bool true) = ['t', 'r', 'u', 'e'] := rfl

theorem chars_false : chars (bool false) = ['f', 'a', 'l', 's', 'e'] := rfl

theorem quoteChars_append (s rest : List Char) :
    quoteChars s ++ rest = '"' :: (s.flatMap escapeChar ++ '"' :: rest) := by
  simp [quoteChars]

theorem begins_chars (j : Json) : ∃ c cs, j.chars = c :: cs ∧ Begins c := by
  cases j with
  | null => exact ⟨_, _, chars_null, .inl (by simp)⟩
  | bool b =>
    cases b with
    | true => exact ⟨_, _, chars_true, .inl (by simp)⟩
    | false => exact ⟨_, _, chars_false, .inl (by simp)⟩
  | num n =>
    obtain ⟨c, cs, hcs, hc⟩ := begins_numberChars n
    exact ⟨c, cs, by rw [chars, hcs], hc.imp (fun h => by simp [h]) id⟩
  | arr js => exact ⟨_, _, by rw [chars]; rfl, .inl (by simp)⟩
  | obj ms => exact ⟨_, _, by rw [chars]; rfl, .inl (by simp)⟩
  | str s => exact ⟨_, _, by rw [chars]; rfl, .inl (by simp)⟩

theorem skipBlanks_of_begins {c : Char} (h : isBlank c = false) (cs : List Char) :
    skipBlanks (c :: cs) = c :: cs := by
  rw [skipBlanks, List.dropWhile_cons_of_neg (by simp [h])]

theorem skipBlanks_chars (j : Json) (rest : List Char) :
    skipBlanks (j.chars ++ rest) = j.chars ++ rest := by
  obtain ⟨c, cs, hcs, hc⟩ := begins_chars j
  rw [hcs, List.cons_append, skipBlanks_of_begins hc.not_skipped]

/-! ## Documents -/

theorem value?_number {c : Char} (hc : c = '-' ∨ c.isDigit = true) (fuel depth : Nat)
    (cs : List Char) :
    value? (fuel + 1) depth (c :: cs) = (number? (c :: cs)).map fun p => (num p.1, p.2) := by
  have hbegins : Begins c := hc.imp (fun h => by simp [h]) id
  rw [value?, skipBlanks_of_begins hbegins.not_skipped]
  split
  case h_7 => rfl
  all_goals
    rename_i heq
    obtain rfl := (List.cons.inj heq).1
    exact absurd hc (by decide)

theorem value?_of_not_begins {c : Char} (hc : ¬ Begins c) (hblank : isBlank c = false)
    (fuel depth : Nat) (cs : List Char) : value? fuel depth (c :: cs) = none := by
  rw [Begins, not_or, Bool.not_eq_true] at hc
  cases fuel with
  | zero => rw [value?]
  | succ fuel =>
    rw [value?, skipBlanks_of_begins hblank]
    split
    case h_7 =>
      have hminus (r : List Char) : c :: cs ≠ '-' :: r := fun h => by
        rw [(List.cons.inj h).1] at hc
        exact hc.1 (by decide)
      rw [number?_of_no_minus hminus, unsigned?, hc.2]
      rfl
    all_goals
      rename_i heq
      obtain rfl := (List.cons.inj heq).1
      exact absurd (by decide) hc.1

theorem length_le_flatMap_escapeChar (s : List Char) :
    s.length ≤ (s.flatMap escapeChar).length := by
  induction s with
  | nil => exact Nat.le_refl _
  | cons c s ih =>
    have hpos : 0 < (escapeChar c).length := by
      unfold escapeChar
      split_ifs <;> exact Nat.succ_pos _
    rw [List.flatMap_cons, List.length_append, List.length_cons]
    omega

theorem textBody?_quoted (s rest : List Char) :
    textBody? ((s.flatMap escapeChar ++ '"' :: rest).length + 1)
      (s.flatMap escapeChar ++ '"' :: rest) = some (s, rest) := by
  refine textBody?_flatMap s rest _ ?_
  have := length_le_flatMap_escapeChar s
  rw [List.length_append]
  omega

theorem value?_quote (fuel depth : Nat) (cs : List Char) :
    value? (fuel + 1) depth ('"' :: cs) =
      (textBody? (cs.length + 1) cs).map fun p => (str (String.ofList p.1), p.2) := by
  rw [value?]
  rfl

theorem value?_text (fuel depth : Nat) (s : String) (rest : List Char) :
    value? (fuel + 1) depth (quoteChars s.toList ++ rest) = some (str s, rest) := by
  rw [quoteChars_append, value?_quote, textBody?_quoted, Option.map_some, String.ofList_toList]

/-- The text after the first of some texts with commas between them. -/
def afterFirst (ts : List (List Char)) (rest : List Char) : List Char :=
  match ts with
  | [] => rest
  | ts => ',' :: (commaJoin ts ++ rest)

theorem commaJoin_append (t : List Char) (ts : List (List Char)) (rest : List Char) :
    commaJoin (t :: ts) ++ rest = t ++ afterFirst ts rest := by
  cases ts <;> simp [commaJoin, afterFirst]

theorem length_commaJoin (t : List Char) (ts : List (List Char)) (hne : ts ≠ []) :
    (commaJoin (t :: ts)).length = t.length + 1 + (commaJoin ts).length := by
  cases ts with
  | nil => exact absurd rfl hne
  | cons t' ts =>
    rw [commaJoin, List.length_append, List.length_cons]
    · omega
    · exact fun h => List.cons_ne_nil _ _ h

theorem endsValue_afterFirst (ts : List (List Char)) {c : Char} (hc : c = ']' ∨ c = '}')
    (rest : List Char) : EndsValue (afterFirst ts (c :: rest)) := by
  cases ts with
  | nil => exact endsValue_cons rest (by rcases hc with rfl | rfl <;> decide)
  | cons t ts => exact endsValue_cons _ (by decide)

theorem value?_bracket (fuel depth : Nat) {r : List Char}
    (hr : ∀ r', skipBlanks r ≠ ']' :: r') :
    value? (fuel + 1) (depth + 1) ('[' :: r) =
      (items? fuel depth (skipBlanks r)).map fun p => (arr p.1, p.2) := by
  rw [value?, skipBlanks_of_begins rfl]
  split
  case h_5 heq =>
    obtain rfl := (List.cons.inj heq).2
    dsimp only
    split
    · rename_i hclose
      exact absurd hclose (hr _)
    · rfl
  case h_7 hbracket _ => exact absurd rfl (hbracket r)
  all_goals
    rename_i heq
    exact absurd (List.cons.inj heq).1 (by decide)

theorem value?_brace (fuel depth : Nat) {r : List Char}
    (hr : ∀ r', skipBlanks r ≠ '}' :: r') :
    value? (fuel + 1) (depth + 1) ('{' :: r) =
      (members? fuel depth (skipBlanks r)).map fun p => (obj (Entries.ofList p.1), p.2) := by
  rw [value?, skipBlanks_of_begins rfl]
  split
  case h_6 heq =>
    obtain rfl := (List.cons.inj heq).2
    dsimp only
    split
    · rename_i hclose
      exact absurd hclose (hr _)
    · rfl
  case h_7 hbrace => exact absurd rfl (hbrace r)
  all_goals
    rename_i heq
    exact absurd (List.cons.inj heq).1 (by decide)

theorem value?_arr (fuel depth : Nat) (j : Json) (js : List Json) (rest : List Char) :
    value? (fuel + 1) (depth + 1) ((arr (j :: js)).chars ++ rest) =
      (items? fuel depth (commaJoin (itemTexts (j :: js)) ++ ']' :: rest)).map
        fun p => (arr p.1, p.2) := by
  rw [chars, List.cons_append, List.cons_append, List.append_assoc, List.singleton_append,
    itemTexts, commaJoin_append, value?_bracket, skipBlanks_chars]
  intro r heq
  obtain ⟨c, cs, hcs, hc⟩ := begins_chars j
  rw [skipBlanks_chars, hcs, List.cons_append] at heq
  exact hc.ne.1 (List.cons.inj heq).1

theorem value?_obj (fuel depth : Nat) (m : String × Json) (ms : Members) (rest : List Char) :
    value? (fuel + 1) (depth + 1) ((obj (m :: ms)).chars ++ rest) =
      (members? fuel depth (commaJoin (memberTexts (m :: ms)) ++ '}' :: rest)).map
        fun p => (obj (Entries.ofList p.1), p.2) := by
  rw [chars, List.cons_append, List.cons_append, List.append_assoc, List.singleton_append,
    memberTexts, commaJoin_append, List.append_assoc, quoteChars_append,
    value?_brace, skipBlanks_of_begins rfl]
  intro r heq
  rw [skipBlanks_of_begins rfl] at heq
  exact absurd (List.cons.inj heq).1 (by decide)

/-- A key and a colon are read from `cs` up to `rest`. -/
def ReadsKey (cs : List Char) (k : String) (rest : List Char) : Prop :=
  ∃ body r, skipBlanks cs = '"' :: body ∧
    textBody? (body.length + 1) body = some (k.toList, r) ∧ skipBlanks r = ':' :: rest

theorem readsKey_quoteChars (k : String) (rest : List Char) :
    ReadsKey (quoteChars k.toList ++ ':' :: rest) k rest :=
  ⟨_, _, by rw [quoteChars_append, skipBlanks_of_begins rfl], textBody?_quoted _ _,
    skipBlanks_of_begins rfl _⟩

section

variable {fuel depth : Nat} {j : Json} {k : String} {cs r r' : List Char}

theorem items?_of_unread (h : value? fuel depth cs = none) : items? (fuel + 1) depth cs = none := by
  rw [items?, h]
  rfl

theorem items?_eq (h : value? fuel depth cs = some (j, r)) :
    items? (fuel + 1) depth cs =
      match skipBlanks r with
      | ',' :: r => (items? fuel depth r).bind fun p => some (j :: p.1, p.2)
      | ']' :: r => some ([j], r)
      | _ => none := by
  rw [items?, h]
  rfl

theorem items?_of_last (h : value? fuel depth cs = some (j, r)) (hr : skipBlanks r = ']' :: r') :
    items? (fuel + 1) depth cs = some ([j], r') := by
  rw [items?_eq h, hr]
  rfl

theorem items?_of_more (h : value? fuel depth cs = some (j, r)) (hr : skipBlanks r = ',' :: r') :
    items? (fuel + 1) depth cs = (items? fuel depth r').map fun p => (j :: p.1, p.2) := by
  rw [items?_eq h, hr]
  show ((items? fuel depth r').bind fun p => some (j :: p.1, p.2)) = _
  cases items? fuel depth r' <;> rfl

theorem members?_key (hkey : ReadsKey cs k r) :
    members? (fuel + 1) depth cs =
      (value? fuel depth r).bind fun p =>
        match skipBlanks p.2 with
        | ',' :: r => (members? fuel depth r).bind fun q => some ((k, p.1) :: q.1, q.2)
        | '}' :: r => some ([(k, p.1)], r)
        | _ => none := by
  obtain ⟨body, r₁, hquote, hbody, hcolon⟩ := hkey
  rw [members?, hquote]
  simp only [hbody, Option.bind_eq_bind, Option.bind_some, hcolon, String.ofList_toList]
  rfl

theorem members?_of_unread (hkey : ReadsKey cs k r) (h : value? fuel depth r = none) :
    members? (fuel + 1) depth cs = none := by
  rw [members?_key hkey, h]
  rfl

theorem members?_eq (hkey : ReadsKey cs k r) (h : value? fuel depth r = some (j, r')) :
    members? (fuel + 1) depth cs =
      match skipBlanks r' with
      | ',' :: r => (members? fuel depth r).bind fun p => some ((k, j) :: p.1, p.2)
      | '}' :: r => some ([(k, j)], r)
      | _ => none := by
  rw [members?_key hkey, h]
  rfl

theorem members?_of_last (hkey : ReadsKey cs k r) (h : value? fuel depth r = some (j, r'))
    {r'' : List Char} (hr : skipBlanks r' = '}' :: r'') :
    members? (fuel + 1) depth cs = some ([(k, j)], r'') := by
  rw [members?_eq hkey h, hr]
  rfl

theorem members?_of_more (hkey : ReadsKey cs k r) (h : value? fuel depth r = some (j, r'))
    {r'' : List Char} (hr : skipBlanks r' = ',' :: r'') :
    members? (fuel + 1) depth cs =
      (members? fuel depth r'').map fun p => ((k, j) :: p.1, p.2) := by
  rw [members?_eq hkey h, hr]
  show ((members? fuel depth r'').bind fun p => some ((k, j) :: p.1, p.2)) = _
  cases members? fuel depth r'' <;> rfl

end

mutual

theorem value?_chars (j : Json) (hj : j.Distinct) (fuel depth : Nat) (rest : List Char)
    (hrest : EndsValue rest) (hfuel : 2 * j.chars.length ≤ fuel) :
    value? fuel depth (j.chars ++ rest) = (j.reread? depth).map (·, rest) := by
  obtain ⟨c, cs, hcs, -⟩ := begins_chars j
  obtain ⟨fuel, rfl⟩ : ∃ n, fuel = n + 1 := ⟨fuel - 1, by rw [hcs] at hfuel; simp at hfuel; omega⟩
  cases j with
  | null =>
    rw [chars_null, reread?]
    · rw [value?]; rfl
    all_goals simp
  | bool b =>
    cases b with
    | true =>
      rw [chars_true, reread?]
      · rw [value?]; rfl
      all_goals simp
    | false =>
      rw [chars_false, reread?]
      · rw [value?]; rfl
      all_goals simp
  | num n =>
    obtain ⟨c, cs, hcs, hc⟩ := begins_numberChars n
    have hread := number?_numberChars n hrest
    rw [chars, hcs, List.cons_append] at *
    rw [value?_number hc, hread]
    simp [reread?, Function.comp_def]
  | str s =>
    rw [chars, value?_text, reread?]
    · rfl
    all_goals simp
  | arr js =>
    cases depth with
    | zero => rw [chars, reread?]; rfl
    | succ depth =>
      cases js with
      | nil => rfl
      | cons j js =>
        rw [chars, List.cons_append, List.length_cons, List.length_append] at hfuel
        rw [value?_arr, items?_itemTexts (j :: js) (List.cons_ne_nil _ _) (distinct_arr.1 hj) fuel
          depth rest (by omega), reread?, Option.map_map, Option.map_map]
        rfl
  | obj ms =>
    cases depth with
    | zero => rw [chars, reread?]; rfl
    | succ depth =>
      cases ms with
      | nil => rfl
      | cons m ms =>
        obtain ⟨hnodup, hdist⟩ := distinct_obj.1 hj
        rw [chars, List.cons_append, List.length_cons, List.length_append] at hfuel
        rw [value?_obj, members?_memberTexts (m :: ms) (List.cons_ne_nil _ _) hdist fuel depth rest
          (by omega), reread?]
        cases hread : rereadMembers? (m :: ms) depth with
        | none => rfl
        | some ms' =>
          rw [Option.map_some, Option.map_some, Option.map_some, Option.map_some,
            Entries.ofList_eq_self (by rwa [keys_rereadMembers? hread])]

theorem items?_itemTexts (js : List Json) (hne : js ≠ []) (hjs : DistinctItems js)
    (fuel depth : Nat) (rest : List Char)
    (hfuel : 2 * (commaJoin (itemTexts js)).length + 1 ≤ fuel) :
    items? fuel depth (commaJoin (itemTexts js) ++ ']' :: rest) =
      (rereadItems? js depth).map (·, rest) := by
  obtain ⟨fuel, rfl⟩ : ∃ n, fuel = n + 1 := ⟨fuel - 1, by omega⟩
  match js, hne with
  | j :: js, _ =>
    have hrest (hne : js ≠ []) := items?_itemTexts js hne hjs.2 fuel depth rest
    have hj := value?_chars j hjs.1 fuel depth (afterFirst (itemTexts js) (']' :: rest))
      (endsValue_afterFirst _ (.inl rfl) rest)
    rw [itemTexts] at hfuel ⊢
    rw [commaJoin_append, rereadItems?]
    cases js with
    | nil =>
      rw [itemTexts, commaJoin] at hfuel
      have hj := hj (by omega)
      cases hread : j.reread? depth with
      | none => rw [items?_of_unread (by rw [hj, hread]; rfl)]; rfl
      | some x => rw [items?_of_last (by rw [hj, hread]; rfl) (skipBlanks_of_begins rfl _)]; rfl
    | cons j' js =>
      rw [length_commaJoin _ _ (by simp [itemTexts])] at hfuel
      have hj := hj (by omega)
      cases hread : j.reread? depth with
      | none => rw [items?_of_unread (by rw [hj, hread]; rfl)]; rfl
      | some x =>
        rw [items?_of_more (by rw [hj, hread]; rfl) (skipBlanks_of_begins rfl _),
          hrest (List.cons_ne_nil _ _) (by omega)]
        cases rereadItems? (j' :: js) depth <;> rfl

theorem members?_memberTexts (ms : List (String × Json)) (hne : ms ≠ []) (hms : DistinctMembers ms)
    (fuel depth : Nat) (rest : List Char)
    (hfuel : 2 * (commaJoin (memberTexts ms)).length + 1 ≤ fuel) :
    members? fuel depth (commaJoin (memberTexts ms) ++ '}' :: rest) =
      (rereadMembers? ms depth).map (·, rest) := by
  obtain ⟨fuel, rfl⟩ : ∃ n, fuel = n + 1 := ⟨fuel - 1, by omega⟩
  match ms, hne with
  | (k, j) :: ms, _ =>
    have hrest (hne : ms ≠ []) := members?_memberTexts ms hne hms.2 fuel depth rest
    have hj := value?_chars j hms.1 fuel depth (afterFirst (memberTexts ms) ('}' :: rest))
      (endsValue_afterFirst _ (.inr rfl) rest)
    rw [memberTexts] at hfuel ⊢
    rw [commaJoin_append, List.append_assoc, List.cons_append, rereadMembers?]
    have hkey := readsKey_quoteChars k (j.chars ++ afterFirst (memberTexts ms) ('}' :: rest))
    cases ms with
    | nil =>
      rw [memberTexts, commaJoin, List.length_append, List.length_cons] at hfuel
      have hj := hj (by omega)
      cases hread : j.reread? depth with
      | none => rw [members?_of_unread hkey (by rw [hj, hread]; rfl)]; rfl
      | some x =>
        rw [members?_of_last hkey (by rw [hj, hread]; rfl) (skipBlanks_of_begins rfl _)]; rfl
    | cons m ms =>
      rw [length_commaJoin _ _ (by simp [memberTexts]), List.length_append, List.length_cons]
        at hfuel
      have hj := hj (by omega)
      cases hread : j.reread? depth with
      | none => rw [members?_of_unread hkey (by rw [hj, hread]; rfl)]; rfl
      | some x =>
        rw [members?_of_more hkey (by rw [hj, hread]; rfl) (skipBlanks_of_begins rfl _),
          hrest (List.cons_ne_nil _ _) (by omega)]
        cases rereadMembers? (m :: ms) depth <;> rfl

end

end Read

/-- **Reading what was written**: the text of a document is read as the document, up to its numbers,
unless it is nested too deep. -/
theorem parseChars?_chars {j : Json} (hj : j.Distinct) :
    parseChars? j.chars = j.reread? maxDepth := by
  have h := Read.value?_chars j hj (2 * j.chars.length + 2) maxDepth [] Read.endsValue_nil (by omega)
  rw [List.append_nil] at h
  rw [parseChars?, h]
  cases j.reread? maxDepth <;> rfl

end Json

/-! ## Specifications -/

open Json Json.Read

theorem relaxChars_plain {c : Char} (h : c ≠ '"' ∧ c ≠ '/' ∧ c ≠ ',') (cs : List Char) :
    relaxChars (c :: cs) = c :: relaxChars cs := by
  rw [relaxChars] <;> simp [h]

theorem relaxChars_plain_append {cs : List Char} (h : ∀ c ∈ cs, c ≠ '"' ∧ c ≠ '/' ∧ c ≠ ',')
    (rest : List Char) : relaxChars (cs ++ rest) = cs ++ relaxChars rest := by
  induction cs with
  | nil => rfl
  | cons c cs ih =>
    rw [List.cons_append, relaxChars_plain (h c List.mem_cons_self),
      ih fun c hc => h c (List.mem_cons_of_mem _ hc), List.cons_append]

theorem relaxChars_comma {c : Char} (h : Begins c) (cs : List Char) :
    relaxChars (',' :: c :: cs) = ',' :: relaxChars (c :: cs) := by
  rw [relaxChars, if_neg]
  rw [closesAfterBlanks, trimLeft, List.dropWhile_cons_of_neg (by simp [h.not_blank])]
  simp [h.ne.1, h.ne.2.1]

theorem relaxText_plain {c : Char} (h : c ≠ '"' ∧ c ≠ '\\') (cs : List Char) :
    relaxText (c :: cs) = c :: relaxText cs := by
  rw [relaxText] <;> simp [h]

theorem relaxText_escapeChar (c : Char) (cs : List Char) :
    relaxText (escapeChar c ++ cs) = escapeChar c ++ relaxText cs := by
  have hpair (d : Char) : relaxText ('\\' :: d :: cs) = '\\' :: d :: relaxText cs := by
    rw [relaxText]
  have hdigit : ∀ n < 16, hexDigit n ≠ '"' ∧ hexDigit n ≠ '\\' := by decide
  unfold escapeChar
  split_ifs with hquote hslash hline hreturn htab hback hfeed hcontrol
  all_goals try exact hpair _
  · rw [List.cons_append, List.cons_append, relaxText, List.cons_append, List.cons_append,
      relaxText_plain (by decide), List.cons_append, relaxText_plain (by decide), List.cons_append,
      relaxText_plain (hdigit _ (by omega)), List.cons_append,
      relaxText_plain (hdigit _ (by omega))]
    rfl
  · exact relaxText_plain ⟨hquote, hslash⟩ cs

theorem relaxChars_quoteChars (s rest : List Char) :
    relaxChars (quoteChars s ++ rest) = quoteChars s ++ relaxChars rest := by
  have hbody : relaxText (s.flatMap escapeChar ++ '"' :: rest) =
      s.flatMap escapeChar ++ '"' :: relaxChars rest := by
    induction s with
    | nil => rw [List.flatMap_nil, List.nil_append, relaxText]; rfl
    | cons c s ih =>
      rw [List.flatMap_cons, List.append_assoc, relaxText_escapeChar, ih, List.append_assoc]
  rw [quoteChars_append, quoteChars_append, relaxChars, hbody]

theorem relaxChars_numeral {cs : List Char} (h : ∀ c ∈ cs, NumeralChar c) (rest : List Char) :
    relaxChars (cs ++ rest) = cs ++ relaxChars rest := by
  refine relaxChars_plain_append (fun c hc => ?_) rest
  rcases h c hc with hc | hc
  · refine ⟨?_, ?_, ?_⟩ <;> rintro rfl <;> cases hc
  · simp only [List.mem_cons, List.not_mem_nil, or_false] at hc
    rcases hc with rfl | rfl | rfl | rfl | rfl <;> decide

mutual

theorem relaxChars_chars (j : Json) (rest : List Char) :
    relaxChars (j.chars ++ rest) = j.chars ++ relaxChars rest := by
  cases j with
  | null =>
    rw [chars_null]
    exact relaxChars_plain_append (by simp) rest
  | bool b =>
    cases b with
    | true =>
      rw [chars_true]
      exact relaxChars_plain_append (by simp) rest
    | false =>
      rw [chars_false]
      exact relaxChars_plain_append (by simp) rest
  | num n => exact relaxChars_numeral (fun c hc => mem_numberChars hc) rest
  | str s => exact relaxChars_quoteChars s.toList rest
  | arr js =>
    rw [chars, List.cons_append, List.cons_append, List.append_assoc, List.singleton_append,
      relaxChars_plain (by decide), relaxChars_itemTexts js, relaxChars_plain (by decide)]
    simp
  | obj ms =>
    rw [chars, List.cons_append, List.cons_append, List.append_assoc, List.singleton_append,
      relaxChars_plain (by decide), relaxChars_memberTexts ms, relaxChars_plain (by decide)]
    simp

theorem relaxChars_itemTexts (js : List Json) (rest : List Char) :
    relaxChars (commaJoin (itemTexts js) ++ rest) = commaJoin (itemTexts js) ++ relaxChars rest := by
  match js with
  | [] => rfl
  | j :: js =>
    have hrest := relaxChars_itemTexts js rest
    rw [itemTexts, commaJoin_append, relaxChars_chars j, commaJoin_append]
    congr 1
    cases js with
    | nil => rfl
    | cons j' js =>
      obtain ⟨c, cs, hcs, hc⟩ := begins_chars j'
      have hbegins : ∃ cs', commaJoin (itemTexts (j' :: js)) ++ rest = c :: cs' :=
        ⟨_, by rw [itemTexts, commaJoin_append, hcs]; rfl⟩
      obtain ⟨cs', hcs'⟩ := hbegins
      show relaxChars (',' :: (commaJoin (itemTexts (j' :: js)) ++ rest)) =
        ',' :: (commaJoin (itemTexts (j' :: js)) ++ relaxChars rest)
      rw [← hrest, hcs', relaxChars_comma hc]

theorem relaxChars_memberTexts (ms : List (String × Json)) (rest : List Char) :
    relaxChars (commaJoin (memberTexts ms) ++ rest) =
      commaJoin (memberTexts ms) ++ relaxChars rest := by
  match ms with
  | [] => rfl
  | (k, j) :: ms =>
    have hrest := relaxChars_memberTexts ms rest
    rw [memberTexts, commaJoin_append, List.append_assoc, relaxChars_quoteChars, List.cons_append,
      relaxChars_plain (by decide), relaxChars_chars j, commaJoin_append, List.append_assoc,
      List.cons_append]
    congr 3
    cases ms with
    | nil => rfl
    | cons m ms =>
      have hbegins : ∃ cs', commaJoin (memberTexts (m :: ms)) ++ rest = '"' :: cs' :=
        ⟨_, by rw [memberTexts, commaJoin_append, List.append_assoc, quoteChars_append]⟩
      obtain ⟨cs', hcs'⟩ := hbegins
      show relaxChars (',' :: (commaJoin (memberTexts (m :: ms)) ++ rest)) =
        ',' :: (commaJoin (memberTexts (m :: ms)) ++ relaxChars rest)
      rw [← hrest, hcs', relaxChars_comma (.inl (by simp))]

end

/-- A specification that was written is read as it was, up to its numbers; if it is nested too deep,
it is read as the chart without content. -/
theorem safeParse_compress {j : Json} (hj : j.Distinct) :
    safeParse j.compress = (j.reread? maxDepth).getD emptyChart := by
  obtain ⟨c, cs, hcs, hc⟩ := begins_chars j
  have hrelax := relaxChars_chars j []
  rw [List.append_nil, relaxChars, List.append_nil] at hrelax
  rw [safeParse, compress, String.toList_ofList, if_neg, hrelax, parseChars?_chars hj]
  rw [hcs, trimLeft, List.dropWhile_cons_of_neg (by simp [hc.not_blank])]
  simp

theorem safeParse_of_not_configured {text : String} (h : isConfigured text = false) :
    safeParse text = .obj [] := by
  have htext : text = "" ∨ text = "\x7b\x7d" := by
    by_contra hne
    rw [not_or] at hne
    simp [isConfigured, hne] at h
  rcases htext with rfl | rfl
  · rfl
  · have hread : safeParse (Json.obj []).compress = .obj [] :=
      (safeParse_compress (by simp [DistinctMembers])).trans rfl
    exact hread

end ChartTemplate
