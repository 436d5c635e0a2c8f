import Mathlib
import ChartTemplate.Proofs.Json.Depth
import ChartTemplate.Proofs.Spec.Layout

/-!
# Specifications with comments and trailing commas

`safeParse_layout` : a document that is written with blanks, comments and trailing commas is read as the
document, unless a comment follows a trailing comma. What is left of the comments and commas is read
token by token; a comma that is left before a closing bracket or brace is refused.
-/

namespace ChartTemplate

open Json Json.Read

/-! ## Gaps -/

theorem skipBlanks_kept (g : Gap) (cs : List Char) : skipBlanks (g.kept ++ cs) = skipBlanks cs :=
  List.dropWhile_append_of_pos fun c hc => by
    obtain ⟨f, -, rfl⟩ := List.mem_map.1 hc
    exact f.isBlank_kept

theorem skipBlanks_kept_cons (g : Gap) {c : Char} (hc : Json.Read.isBlank c = false)
    (cs : List Char) : skipBlanks (g.kept ++ c :: cs) = c :: cs := by
  rw [skipBlanks_kept, skipBlanks_of_begins hc]

theorem endsValue_kept (g : Gap) {cs : List Char} (h : EndsValue cs) : EndsValue (g.kept ++ cs) := by
  cases g with
  | nil => exact h
  | cons f g =>
    have hblank {c : Char} (hc : Json.Read.isBlank c = true) : c ∈ enders := by
      simp only [Json.Read.isBlank, Bool.or_eq_true, beq_iff_eq] at hc
      rcases hc with ((rfl | rfl) | rfl) | rfl <;> decide
    exact endsValue_cons _ (hblank f.isBlank_kept)

theorem value?_kept (g : Gap) (fuel depth : Nat) (cs : List Char) :
    value? fuel depth (g.kept ++ cs) = value? fuel depth cs := by
  cases fuel with
  | zero => rw [value?, value?]
  | succ fuel => rw [value?, value?, skipBlanks_kept]

theorem readsKey_kept (g : Gap) {cs rest : List Char} {k : String} (h : ReadsKey cs k rest) :
    ReadsKey (g.kept ++ cs) k rest := by
  obtain ⟨body, r, hquote, hrest⟩ := h
  exact ⟨body, r, (skipBlanks_kept g cs).trans hquote, hrest⟩

/-! ## Tokens -/

theorem textBody?_glyphs (gs : List Glyph) (rest : List Char) (fuel : Nat) (h : gs.length < fuel) :
    textBody? fuel (gs.flatMap Glyph.chars ++ '"' :: rest) = some (gs.map Glyph.char, rest) := by
  induction gs generalizing fuel with
  | nil =>
    obtain ⟨fuel, rfl⟩ : ∃ n, fuel = n + 1 := ⟨fuel - 1, by simp at h; omega⟩
    rfl
  | cons g gs ih =>
    obtain ⟨fuel, rfl⟩ : ∃ n, fuel = n + 1 := ⟨fuel - 1, by simp at h; omega⟩
    have ih := ih fuel (by simpa using h)
    rw [List.flatMap_cons, List.append_assoc]
    cases g with
    | plain c hc =>
      obtain ⟨hquote, hslash, hcontrol⟩ := hc
      show textBody? (fuel + 1) (c :: (gs.flatMap Glyph.chars ++ '"' :: rest)) = _
      rw [textBody?, if_neg (by simpa using hquote), if_neg (by simpa using hslash),
        if_neg (by omega), ih]
      rfl
    | escape spelling c hc =>
      obtain ⟨p, hp, hread, -⟩ := eq_of_escape? hc
      obtain rfl : spelling = p := by simpa using hp
      show textBody? (fuel + 1) ('\\' :: (spelling ++ (gs.flatMap Glyph.chars ++ '"' :: rest))) = _
      rw [textBody?_escape (hread _), ih]
      rfl

theorem textBody?_quote (gs : List Glyph) (rest : List Char) :
    textBody? ((gs.flatMap Glyph.chars ++ '"' :: rest).length + 1)
      (gs.flatMap Glyph.chars ++ '"' :: rest) = some (gs.map Glyph.char, rest) := by
  refine textBody?_glyphs gs rest _ ?_
  have hpos (g : Glyph) : 1 ≤ g.chars.length := by cases g <;> simp [Glyph.chars]
  have hle : gs.length ≤ (gs.flatMap Glyph.chars).length := by
    induction gs with
    | nil => exact Nat.le_refl _
    | cons g gs ih =>
      have := hpos g
      rw [List.flatMap_cons, List.length_append, List.length_cons]
      omega
  rw [List.length_append]
  omega

theorem value?_scalar (s : ScalarLayout) (fuel depth : Nat) {rest : List Char}
    (h : EndsValue rest) : value? (fuel + 1) depth (s.chars ++ rest) = some (s.value, rest) := by
  cases s with
  | null => rw [ScalarLayout.chars, chars_null, value?]; rfl
  | bool b =>
    cases b with
    | true => rw [ScalarLayout.chars, chars_true, value?]; rfl
    | false => rw [ScalarLayout.chars, chars_false, value?]; rfl
  | number spelling n hn =>
    obtain ⟨-, c, cs, rfl, hc⟩ := takes_number? hn
    rw [ScalarLayout.chars, List.cons_append, value?_number hc, ← List.cons_append,
      number?_append h, hn]
    rfl
  | text gs =>
    rw [ScalarLayout.chars, Glyph.quote, List.append_assoc, List.cons_append, List.singleton_append,
      value?_quote, textBody?_quote]
    rfl

theorem readsKey_render (k : KeyLayout) (rest : List Char) :
    ReadsKey (k.render Gap.kept ++ rest) (Glyph.text k.name) rest := by
  have hname : ReadsKey (Glyph.quote k.name ++ (k.after.kept ++ ':' :: rest)) (Glyph.text k.name)
      rest := by
    refine ⟨k.name.flatMap Glyph.chars ++ '"' :: (k.after.kept ++ ':' :: rest), _, ?_, ?_,
      skipBlanks_kept_cons k.after rfl rest⟩
    · rw [Glyph.quote, List.append_assoc, List.cons_append, List.singleton_append,
        skipBlanks_of_begins rfl]
    · rw [textBody?_quote, Glyph.text, String.toList_ofList]
  have hkey := readsKey_kept k.before hname
  simpa only [KeyLayout.render, List.append_assoc, List.singleton_append] using hkey

/-! ## Documents -/

mutual

/-- What is read of a document, with containers nested at most so deep. -/
def Layout.read? : Layout → Nat → Option Json
  | .scalar s, _ => some s.value
  | .emptyArray _, 0 => none
  | .emptyArray _, _ + 1 => some (.arr [])
  | .array _, 0 => none
  | .array items, depth + 1 => (items.read? depth).map .arr
  | .emptyObject _, 0 => none
  | .emptyObject _, _ + 1 => some (.obj [])
  | .object _, 0 => none
  | .object members, depth + 1 => (members.read? depth).map fun ms => .obj (Entries.ofList ms)

def ItemsLayout.read? : ItemsLayout → Nat → Option (List Json)
  | .last _ item _ trailing, depth =>
    (item.read? depth).bind fun j => if trailing.all Gap.isBlank then some [j] else none
  | .more _ item _ rest, depth =>
    (item.read? depth).bind fun j => (rest.read? depth).map (j :: ·)

def MembersLayout.read? : MembersLayout → Nat → Option (List (String × Json))
  | .last key _ v _ trailing, depth =>
    (v.read? depth).bind fun j =>
      if trailing.all Gap.isBlank then some [(Glyph.text key.name, j)] else none
  | .more key _ v _ rest, depth =>
    (v.read? depth).bind fun j => (rest.read? depth).map ((Glyph.text key.name, j) :: ·)

end

theorem skipBlanks_trailing (after : Gap) (trailing : Option Gap) {c : Char}
    (hc : Json.Read.isBlank c = false) (rest : List Char) :
    skipBlanks (after.kept ++ (trailing.elim [] Gap.keptAfterComma ++ c :: rest)) =
      if trailing.all Gap.isBlank then c :: rest
      else ',' :: (Gap.kept (trailing.getD []) ++ c :: rest) := by
  rw [skipBlanks_kept]
  cases trailing with
  | none => exact skipBlanks_of_begins hc rest
  | some g =>
    simp only [Option.elim_some, Option.all_some, Option.getD_some, Gap.keptAfterComma]
    split
    · exact skipBlanks_kept_cons g hc rest
    · exact skipBlanks_of_begins rfl _

theorem endsValue_trailing (after : Gap) (trailing : Option Gap) {c : Char} (hc : c ∈ enders)
    (rest : List Char) :
    EndsValue (after.kept ++ (trailing.elim [] Gap.keptAfterComma ++ c :: rest)) := by
  refine endsValue_kept after ?_
  cases trailing with
  | none => exact endsValue_cons rest hc
  | some g =>
    simp only [Option.elim_some, Gap.keptAfterComma]
    split
    · exact endsValue_kept g (endsValue_cons rest hc)
    · exact endsValue_cons _ (by decide)

section

variable {fuel depth : Nat} {r r' : List Char}

theorem value?_emptyArray (h : skipBlanks r = ']' :: r') :
    value? (fuel + 1) (depth + 1) ('[' :: r) = some (arr [], r') := by
  rw [value?, skipBlanks_of_begins rfl]
  simp only [h]

theorem value?_emptyObject (h : skipBlanks r = '}' :: r') :
    value? (fuel + 1) (depth + 1) ('{' :: r) = some (obj [], r') := by
  rw [value?, skipBlanks_of_begins rfl]
  simp only [h]

theorem items?_kept (g : Gap) (cs : List Char) :
    Read.items? fuel depth (g.kept ++ cs) = Read.items? fuel depth cs := by
  cases fuel with
  | zero => rw [Read.items?, Read.items?]
  | succ fuel => rw [Read.items?, Read.items?, value?_kept]

theorem members?_kept (g : Gap) (cs : List Char) :
    Read.members? fuel depth (g.kept ++ cs) = Read.members? fuel depth cs := by
  cases fuel with
  | zero => rw [Read.members?, Read.members?]
  | succ fuel => rw [Read.members?, Read.members?, skipBlanks_kept]

theorem items?_close (g : Gap) (cs : List Char) :
    Read.items? fuel depth (g.kept ++ ']' :: cs) = none := by
  rw [items?_kept]
  cases fuel with
  | zero => rw [Read.items?]
  | succ fuel => exact items?_of_unread (value?_of_not_begins (by simp [Begins]) rfl fuel depth cs)

theorem members?_close (g : Gap) (cs : List Char) :
    Read.members? fuel depth (g.kept ++ '}' :: cs) = none := by
  rw [members?_kept]
  cases fuel with
  | zero => rw [Read.members?]
  | succ fuel => rw [Read.members?]; rfl

end

mutual

theorem value?_layout (l : Layout) (fuel depth : Nat) (rest : List Char) (hrest : EndsValue rest)
    (hfuel : 2 * (l.render Gap.kept Gap.keptAfterComma).length ≤ fuel) :
    value? fuel depth (l.render Gap.kept Gap.keptAfterComma ++ rest) =
      (l.read? depth).map (·, rest) := by
  obtain ⟨c, cs, hcs, -⟩ := l.begins_render Gap.kept Gap.keptAfterComma
  obtain ⟨fuel, rfl⟩ : ∃ n, fuel = n + 1 :=
    ⟨fuel - 1, by rw [hcs] at hfuel; simp at hfuel; omega⟩
  clear hcs
  cases l with
  | scalar s => exact value?_scalar s fuel depth hrest
  | emptyArray g =>
    simp only [Layout.render, List.cons_append, List.append_assoc, List.nil_append]
    cases depth with
    | zero => rw [Layout.read?, value?]; rfl
    | succ depth => exact value?_emptyArray (skipBlanks_kept_cons g rfl rest)
  | array items =>
    simp only [Layout.render, List.cons_append, List.append_assoc, List.nil_append, List.length_cons,
      List.length_append, List.length_nil] at hfuel ⊢
    cases depth with
    | zero => rw [Layout.read?, value?]; rfl
    | succ depth =>
      have hitems := items?_layout items fuel depth rest (by omega)
      obtain ⟨g, c, cs, hcs, hc⟩ := items.begins_render Gap.kept Gap.keptAfterComma
      rw [hcs, List.append_assoc, List.cons_append] at hitems ⊢
      have hskip := skipBlanks_kept_cons g hc.not_skipped (cs ++ ']' :: rest)
      rw [value?_bracket _ _ (by rw [hskip]; exact fun r h => hc.ne.1 (List.cons.inj h).1), hskip,
        ← items?_kept g, hitems, Layout.read?, Option.map_map, Option.map_map]
      rfl
  | emptyObject g =>
    simp only [Layout.render, List.cons_append, List.append_assoc, List.nil_append]
    cases depth with
    | zero => rw [Layout.read?, value?]; rfl
    | succ depth => exact value?_emptyObject (skipBlanks_kept_cons g rfl rest)
  | object members =>
    simp only [Layout.render, List.cons_append, List.append_assoc, List.nil_append, List.length_cons,
      List.length_append, List.length_nil] at hfuel ⊢
    cases depth with
    | zero => rw [Layout.read?, value?]; rfl
    | succ depth =>
      have hmembers := members?_layout members fuel depth rest (by omega)
      obtain ⟨g, cs, hcs⟩ := members.begins_render Gap.kept Gap.keptAfterComma
      rw [hcs, List.append_assoc, List.cons_append] at hmembers ⊢
      have hskip := skipBlanks_kept_cons g (c := '"') rfl (cs ++ '}' :: rest)
      rw [value?_brace _ _ (by rw [hskip]; exact fun r h => absurd (List.cons.inj h).1 (by decide)),
        hskip, ← members?_kept g, hmembers, Layout.read?, Option.map_map, Option.map_map]
      rfl

theorem items?_layout (is : ItemsLayout) (fuel depth : Nat) (rest : List Char)
    (hfuel : 2 * (is.render Gap.kept Gap.keptAfterComma).length + 1 ≤ fuel) :
    Read.items? fuel depth (is.render Gap.kept Gap.keptAfterComma ++ ']' :: rest) =
      (is.read? depth).map (·, rest) := by
  obtain ⟨fuel, rfl⟩ : ∃ n, fuel = n + 1 := ⟨fuel - 1, by omega⟩
  cases is with
  | last before item after trailing =>
    simp only [ItemsLayout.render, List.append_assoc, List.length_append] at hfuel ⊢
    have hitem := value?_layout item fuel depth _
      (endsValue_trailing after trailing (show ']' ∈ enders by decide) rest) (by omega)
    rw [← value?_kept before] at hitem
    rw [ItemsLayout.read?]
    cases hread : item.read? depth with
    | none => rw [items?_of_unread (by rw [hitem, hread]; rfl)]; rfl
    | some j =>
      rw [hread, Option.map_some] at hitem
      have hskip := skipBlanks_trailing after trailing (show Json.Read.isBlank ']' = false from rfl) rest
      cases hblank : trailing.all Gap.isBlank with
      | true =>
        rw [hblank, if_pos rfl] at hskip
        rw [items?_of_last hitem hskip]
        rfl
      | false =>
        rw [hblank, if_neg Bool.false_ne_true] at hskip
        rw [items?_of_more hitem hskip, items?_close]
        rfl
  | more before item after is =>
    simp only [ItemsLayout.render, List.append_assoc, List.length_append, List.cons_append,
      List.length_cons] at hfuel ⊢
    have hitem := value?_layout item fuel depth
      (after.kept ++ ',' :: (is.render Gap.kept Gap.keptAfterComma ++ ']' :: rest))
      (endsValue_kept after (endsValue_cons _ (by decide))) (by omega)
    rw [← value?_kept before] at hitem
    rw [ItemsLayout.read?]
    cases hread : item.read? depth with
    | none => rw [items?_of_unread (by rw [hitem, hread]; rfl)]; rfl
    | some j =>
      rw [hread, Option.map_some] at hitem
      rw [items?_of_more hitem (skipBlanks_kept_cons after rfl _),
        items?_layout is fuel depth rest (by omega), Option.bind_some, Option.map_map,
        Option.map_map]
      rfl

theorem members?_layout (ms : MembersLayout) (fuel depth : Nat) (rest : List Char)
    (hfuel : 2 * (ms.render Gap.kept Gap.keptAfterComma).length + 1 ≤ fuel) :
    Read.members? fuel depth (ms.render Gap.kept Gap.keptAfterComma ++ '}' :: rest) =
      (ms.read? depth).map (·, rest) := by
  obtain ⟨fuel, rfl⟩ : ∃ n, fuel = n + 1 := ⟨fuel - 1, by omega⟩
  cases ms with
  | last key before v after trailing =>
    simp only [MembersLayout.render, List.append_assoc, List.length_append] at hfuel ⊢
    have hvalue := value?_layout v fuel depth _
      (endsValue_trailing after trailing (show '}' ∈ enders by decide) rest) (by omega)
    rw [← value?_kept before] at hvalue
    have hkey := readsKey_render key (before.kept ++
      (v.render Gap.kept Gap.keptAfterComma ++ (after.kept ++
      (trailing.elim [] Gap.keptAfterComma ++ '}' :: rest))))
    rw [MembersLayout.read?]
    cases hread : v.read? depth with
    | none => rw [members?_of_unread hkey (by rw [hvalue, hread]; rfl)]; rfl
    | some j =>
      rw [hread, Option.map_some] at hvalue
      have hskip := skipBlanks_trailing after trailing (show Json.Read.isBlank '}' = false from rfl) rest
      cases hblank : trailing.all Gap.isBlank with
      | true =>
        rw [hblank, if_pos rfl] at hskip
        rw [members?_of_last hkey hvalue hskip]
        rfl
      | false =>
        rw [hblank, if_neg Bool.false_ne_true] at hskip
        rw [members?_of_more hkey hvalue hskip, members?_close]
        rfl
  | more key before v after ms =>
    simp only [MembersLayout.render, List.append_assoc, List.length_append, List.cons_append,
      List.length_cons] at hfuel ⊢
    have hvalue := value?_layout v fuel depth
      (after.kept ++ ',' :: (ms.render Gap.kept Gap.keptAfterComma ++ '}' :: rest))
      (endsValue_kept after (endsValue_cons _ (by decide))) (by omega)
    rw [← value?_kept before] at hvalue
    have hkey := readsKey_render key (before.kept ++
      (v.render Gap.kept Gap.keptAfterComma ++ (after.kept ++
      ',' :: (ms.render Gap.kept Gap.keptAfterComma ++ '}' :: rest))))
    rw [MembersLayout.read?]
    cases hread : v.read? depth with
    | none => rw [members?_of_unread hkey (by rw [hvalue, hread]; rfl)]; rfl
    | some j =>
      rw [hread, Option.map_some] at hvalue
      rw [members?_of_more hkey hvalue (skipBlanks_kept_cons after rfl _),
        members?_layout ms fuel depth rest (by omega), Option.bind_some, Option.map_map,
        Option.map_map]
      rfl

end

/-! ## What is read -/

mutual

theorem Layout.read?_of_settled (l : Layout) (depth : Nat) (hl : l.isSettled = true)
    (hdistinct : l.value.Distinct) (hdepth : l.value.depth ≤ depth) :
    l.read? depth = some l.value := by
  cases l with
  | scalar s => rw [Layout.read?, Layout.value]
  | emptyArray g | emptyObject g =>
    obtain ⟨depth, rfl⟩ : ∃ n, depth = n + 1 := ⟨depth - 1, by
      simp only [Layout.value, Json.depth] at hdepth
      omega⟩
    rw [Layout.read?, Layout.value]
  | array items =>
    rw [Layout.value, Json.depth] at hdepth
    obtain ⟨depth, rfl⟩ : ∃ n, depth = n + 1 := ⟨depth - 1, by omega⟩
    rw [Layout.value, distinct_arr] at hdistinct
    rw [Layout.isSettled] at hl
    rw [Layout.read?, items.read?_of_settled depth hl hdistinct (by omega), Layout.value]
    rfl
  | object members =>
    rw [Layout.value, Json.depth] at hdepth
    obtain ⟨depth, rfl⟩ : ∃ n, depth = n + 1 := ⟨depth - 1, by omega⟩
    rw [Layout.value, distinct_obj] at hdistinct
    rw [Layout.isSettled] at hl
    rw [Layout.read?, members.read?_of_settled depth hl hdistinct.2 (by omega), Layout.value,
      Option.map_some, Entries.ofList_eq_self hdistinct.1]

theorem ItemsLayout.read?_of_settled (is : ItemsLayout) (depth : Nat) (his : is.isSettled = true)
    (hdistinct : DistinctItems is.values) (hdepth : depthItems is.values ≤ depth) :
    is.read? depth = some is.values := by
  cases is with
  | last before item after trailing =>
    rw [ItemsLayout.isSettled, Bool.and_eq_true] at his
    rw [ItemsLayout.values, DistinctItems] at hdistinct
    rw [ItemsLayout.values, depthItems, Nat.max_le] at hdepth
    rw [ItemsLayout.read?, item.read?_of_settled depth his.1 hdistinct.1 hdepth.1, Option.bind_some,
      his.2, if_pos rfl, ItemsLayout.values]
  | more before item after rest =>
    rw [ItemsLayout.isSettled, Bool.and_eq_true] at his
    rw [ItemsLayout.values, DistinctItems] at hdistinct
    rw [ItemsLayout.values, depthItems, Nat.max_le] at hdepth
    rw [ItemsLayout.read?, item.read?_of_settled depth his.1 hdistinct.1 hdepth.1, Option.bind_some,
      rest.read?_of_settled depth his.2 hdistinct.2 hdepth.2, ItemsLayout.values]
    rfl

theorem MembersLayout.read?_of_settled (ms : MembersLayout) (depth : Nat)
    (hms : ms.isSettled = true) (hdistinct : DistinctMembers ms.values)
    (hdepth : depthMembers ms.values ≤ depth) : ms.read? depth = some ms.values := by
  cases ms with
  | last key before v after trailing =>
    rw [MembersLayout.isSettled, Bool.and_eq_true] at hms
    rw [MembersLayout.values, DistinctMembers] at hdistinct
    rw [MembersLayout.values, depthMembers, Nat.max_le] at hdepth
    rw [MembersLayout.read?, v.read?_of_settled depth hms.1 hdistinct.1 hdepth.1, Option.bind_some,
      hms.2, if_pos rfl, MembersLayout.values]
  | more key before v after rest =>
    rw [MembersLayout.isSettled, Bool.and_eq_true] at hms
    rw [MembersLayout.values, DistinctMembers] at hdistinct
    rw [MembersLayout.values, depthMembers, Nat.max_le] at hdepth
    rw [MembersLayout.read?, v.read?_of_settled depth hms.1 hdistinct.1 hdepth.1, Option.bind_some,
      rest.read?_of_settled depth hms.2 hdistinct.2 hdepth.2, MembersLayout.values]
    rfl

end

mutual

theorem Layout.read?_of_not_settled (l : Layout) (depth : Nat) (hl : l.isSettled = false) :
    l.read? depth = none := by
  cases l with
  | scalar s | emptyArray g | emptyObject g => simp [Layout.isSettled] at hl
  | array items =>
    cases depth with
    | zero => rw [Layout.read?]
    | succ depth =>
      rw [Layout.isSettled] at hl
      rw [Layout.read?, items.read?_of_not_settled depth hl]
      rfl
  | object members =>
    cases depth with
    | zero => rw [Layout.read?]
    | succ depth =>
      rw [Layout.isSettled] at hl
      rw [Layout.read?, members.read?_of_not_settled depth hl]
      rfl

theorem ItemsLayout.read?_of_not_settled (is : ItemsLayout) (depth : Nat)
    (his : is.isSettled = false) : is.read? depth = none := by
  cases is with
  | last before item after trailing =>
    rw [ItemsLayout.read?]
    rw [ItemsLayout.isSettled, Bool.and_eq_false_iff] at his
    rcases his with hitem | htrailing
    · rw [item.read?_of_not_settled depth hitem]
      rfl
    · rw [htrailing]
      cases item.read? depth <;> rfl
  | more before item after rest =>
    rw [ItemsLayout.read?]
    rw [ItemsLayout.isSettled, Bool.and_eq_false_iff] at his
    rcases his with hitem | hrest
    · rw [item.read?_of_not_settled depth hitem]
      rfl
    · rw [rest.read?_of_not_settled depth hrest]
      cases item.read? depth <;> rfl

theorem MembersLayout.read?_of_not_settled (ms : MembersLayout) (depth : Nat)
    (hms : ms.isSettled = false) : ms.read? depth = none := by
  cases ms with
  | last key before v after trailing =>
    rw [MembersLayout.read?]
    rw [MembersLayout.isSettled, Bool.and_eq_false_iff] at hms
    rcases hms with hv | htrailing
    · rw [v.read?_of_not_settled depth hv]
      rfl
    · rw [htrailing]
      cases v.read? depth <;> rfl
  | more key before v after rest =>
    rw [MembersLayout.read?]
    rw [MembersLayout.isSettled, Bool.and_eq_false_iff] at hms
    rcases hms with hv | hrest
    · rw [v.read?_of_not_settled depth hv]
      rfl
    · rw [rest.read?_of_not_settled depth hrest]
      cases v.read? depth <;> rfl

end

/-- The text of a specification: a document with gaps around it. -/
def Layout.specification (before : Gap) (l : Layout) (after : Gap) : String :=
  String.ofList (before.chars ++ (l.chars ++ after.chars))

/-- **Specifications with comments and trailing commas** are read as the document that is written, unless
a comment follows a trailing comma: then they are read as the chart without content. -/
theorem safeParse_layout (before after : Gap) (l : Layout) (hdistinct : l.value.Distinct)
    (hdepth : l.value.depth ≤ maxDepth) :
    safeParse (l.specification before after) = if l.isSettled then l.value else emptyChart := by
  have hfilled : (trimLeft (before.chars ++ (l.chars ++ after.chars))).isEmpty = false := by
    obtain ⟨c, cs, hcs, hc⟩ := l.begins_render Gap.chars Gap.afterComma
    rw [List.isEmpty_eq_false_iff, trimLeft, Ne, List.dropWhile_eq_nil_iff, Layout.chars, hcs]
    intro hall
    have hblank := hall c (by simp)
    rw [hc.not_blank] at hblank
    cases hblank
  have hrelax : relaxChars (before.chars ++ (l.chars ++ after.chars)) =
      before.kept ++ (l.kept ++ (after.kept ++ [])) := by
    have hafter := after.relaxChars_chars []
    rw [List.append_nil, relaxChars] at hafter
    rw [before.relaxChars_chars, relaxChars_layout, hafter]
  have hread (fuel : Nat) (hfuel : 2 * (l.render Gap.kept Gap.keptAfterComma).length ≤ fuel) :
      value? fuel maxDepth (before.kept ++ (l.kept ++ (after.kept ++ []))) =
        (l.read? maxDepth).map (·, after.kept ++ []) := by
    rw [value?_kept]
    exact value?_layout l fuel maxDepth _ (endsValue_kept after endsValue_nil) hfuel
  have hend : (skipBlanks (after.kept ++ [])).isEmpty = true := by rw [skipBlanks_kept]; rfl
  rw [safeParse, Layout.specification, String.toList_ofList, hfilled, if_neg Bool.false_ne_true,
    hrelax, parseChars?, hread _ (by simp only [List.length_append, Layout.kept]; omega)]
  cases hl : l.isSettled with
  | true =>
    rw [l.read?_of_settled maxDepth hl hdistinct hdepth, Option.map_some]
    simp only [hend, if_true, Option.getD_some]
  | false =>
    rw [l.read?_of_not_settled maxDepth hl]
    rfl

def ScalarLayout.one : ScalarLayout := .number ['1'] (.int 1) (by decide)

/-- Comments before an array, around its item and before a trailing comma. -/
theorem safeParse_layout_comments :
    let before : Gap := [.line ['"'] (by decide)]
    let l : Layout := .array (.last [.block ['/', ' '] (by decide)] (.scalar .one)
      [.line ['1'] (by decide)] (some [.blank ' ' rfl]))
    l.value.Distinct ∧ l.value.depth ≤ maxDepth ∧
      l.specification before [] = "//\"\n[/*/ */1//1\n, ]" ∧
      safeParse (l.specification before []) = .arr [.num (.int 1)] := by
  intro before l
  have hdistinct : l.value.Distinct := distinct_arr.2 ⟨trivial, trivial⟩
  have hdepth : l.value.depth ≤ maxDepth := by decide
  exact ⟨hdistinct, hdepth, by decide, safeParse_layout before [] l hdistinct hdepth⟩

/-- A comment after a trailing comma: nothing of the specification is left. -/
theorem safeParse_comment_after_comma :
    let l : Layout := .array (.last [] (.scalar .one) [] (some [.block [] (by decide)]))
    l.specification [] [] = "[1,/**/]" ∧ l.value = .arr [.num (.int 1)] ∧
      safeParse "[1,/**/]" = emptyChart := by
  have hrelax : relaxChars "[1,/**/]".toList = "[1, ]".toList := by cbv
  have hread : parseChars? "[1, ]".toList = none := by cbv
  refine ⟨by decide, rfl, ?_⟩
  rw [safeParse, hrelax, hread]
  rfl

end ChartTemplate
