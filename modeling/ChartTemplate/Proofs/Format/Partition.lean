import ChartTemplate.Proofs.Format.Grouping
import Mathlib.Algebra.Order.Ring.Nat

/-!
# Groups of three

Without a limit, the groups of a text are the one way to cut it into threes from its end (`Thirds.unique`):
by induction on the rounds, each of which takes three characters and leaves the others, every group is full
but the one that is taken last, which is the first of the text (`thirds_groupsRev`). A limit for which
the text with its commas has room changes nothing (`groupsRev_some_eq`).
-/

namespace ChartTemplate

/-! ## Threes -/

/-- Groups of three characters. The first may have fewer, but not none. -/
structure Thirds (parts : List (List Char)) : Prop where
  first : ∀ part ∈ parts.head?, 1 ≤ part.length ∧ part.length ≤ 3
  rest : ∀ part ∈ parts.tail, part.length = 3

namespace Thirds

variable {parts parts' : List (List Char)} {part : List Char}

theorem nil : Thirds [] :=
  ⟨by simp, by simp⟩

theorem singleton (hpos : 1 ≤ part.length) (hle : part.length ≤ 3) : Thirds [part] :=
  ⟨by simpa using ⟨hpos, hle⟩, by simp⟩

theorem concat (h : Thirds parts) (hne : parts ≠ []) (hpart : part.length = 3) :
    Thirds (parts ++ [part]) := by
  obtain ⟨first, rest, rfl⟩ := List.exists_cons_of_ne_nil hne
  refine ⟨by simpa using h.first, fun p hp => ?_⟩
  rcases List.mem_append.1 hp with hp | hp
  · exact h.rest p hp
  · rw [List.mem_singleton.1 hp]
    exact hpart

theorem ne_nil (h : Thirds parts) (hpart : part ∈ parts) : part ≠ [] := by
  rintro rfl
  cases parts with
  | nil => cases hpart
  | cons first rest =>
    rcases List.mem_cons.1 hpart with rfl | hpart
    · exact absurd (h.first [] rfl).1 (by simp)
    · exact absurd (h.rest [] hpart) (by simp)

theorem length_eq (h : Thirds parts) : parts.length = (parts.flatten.length + 2) / 3 := by
  cases parts with
  | nil => rfl
  | cons first rest =>
    obtain ⟨hpos, hle⟩ := h.first first rfl
    have hfull : ∀ part ∈ rest, part.length = 3 := h.rest
    have hrest : rest.flatten.length = 3 * rest.length := by
      rw [List.length_flatten, List.map_congr_left hfull]
      simp [Nat.mul_comm]
    rw [List.flatten_cons, List.length_append, hrest, List.length_cons]
    omega

theorem map_length_eq (h : Thirds parts) (h' : Thirds parts')
    (hflatten : parts.flatten = parts'.flatten) : parts.map List.length = parts'.map List.length := by
  have hlength : parts.length = parts'.length := by rw [h.length_eq, h'.length_eq, hflatten]
  cases parts with
  | nil => rw [List.eq_nil_of_length_eq_zero hlength.symm]
  | cons first rest =>
    cases parts' with
    | nil => cases hlength
    | cons first' rest' =>
      have hfull : ∀ part ∈ rest, part.length = 3 := h.rest
      have hfull' : ∀ part ∈ rest', part.length = 3 := h'.rest
      have hrest : rest.map List.length = rest'.map List.length := by
        rw [List.map_congr_left hfull, List.map_congr_left hfull', List.map_const', List.map_const',
          Nat.succ.inj hlength]
      have htotal := congrArg List.length hflatten
      rw [List.flatten_cons, List.flatten_cons, List.length_append, List.length_append,
        List.length_flatten, List.length_flatten, hrest] at htotal
      rw [List.map_cons, List.map_cons, hrest, Nat.add_right_cancel htotal]

/-- **A text** can be cut into threes in one way only. -/
theorem unique (h : Thirds parts) (h' : Thirds parts') (hflatten : parts.flatten = parts'.flatten) :
    parts = parts' :=
  List.eq_iff_flatten_eq.2 ⟨hflatten, h.map_length_eq h' hflatten⟩

end Thirds

/-! ## Rounds -/

theorem groupsRev_none_eq (length : Nat) {rev : List Char} (hne : rev ≠ []) :
    groupsRev none length rev = (rev.take 3).reverse :: groupsRev none (length + 4) (rev.drop 3) := by
  obtain ⟨c, cs, rfl⟩ := List.exists_cons_of_ne_nil hne
  rw [groupsRev]
  rfl

/-- **Each round** takes a full group, and the last one what is left. -/
theorem thirds_groupsRev (length : Nat) (rev : List Char) :
    Thirds (groupsRev none length rev).reverse := by
  fun_induction groupsRev none length rev with
  | case1 => exact .nil
  | case2 length c cs size rest next more ih =>
    rw [if_pos rfl, List.reverse_cons]
    have hlength : ((c :: cs).take 3).reverse.length = min 3 (cs.length + 1) := by
      rw [List.length_reverse, List.length_take, List.length_cons]
    by_cases hend : rest = []
    · rw [hend, groupsRev]
      exact .singleton (by rw [hlength]; omega) (by rw [hlength]; omega)
    · have hlong : ¬ cs.length ≤ 2 := fun h => hend (List.drop_eq_nil_iff.2 h)
      refine ih.concat (fun h => ?_) (by rw [hlength]; omega)
      rw [List.reverse_eq_nil_iff, groupsRev_none_eq _ hend] at h
      cases h

theorem groupsRev_some_eq {w length : Nat} (rev : List Char)
    (hroom : length + 4 * ((rev.length + 2) / 3) ≤ w) :
    groupsRev (some w) length rev = groupsRev none length rev := by
  fun_induction groupsRev (some w) length rev with
  | case1 => rw [groupsRev]
  | case2 length c cs size rest next more ih =>
    rw [List.length_cons] at hroom
    have hsize : size = 3 := if_neg (by omega)
    have hnext : next = length + 4 := by omega
    have hmore : more = true := decide_eq_true (by omega)
    have hrest : rest = (c :: cs).drop 3 := by
      show cs.drop (size - 1) = _
      rw [hsize]
      rfl
    have hleft : next + 4 * ((rest.length + 2) / 3) ≤ w := by
      rw [hrest, List.length_drop, List.length_cons]
      omega
    rw [groupsRev_none_eq length (List.cons_ne_nil c cs), if_pos hmore, ih hleft, hsize, hnext, hrest]

/-! ## Texts with commas -/

theorem joinChars_eq (sep : List Char) (ts : List (List Char)) : joinChars sep ts = sep.intercalate ts := by
  induction ts using joinChars.induct with
  | case1 => rfl
  | case2 t => simp [joinChars]
  | case3 t ts hts ih =>
    obtain ⟨t', ts, rfl⟩ := List.exists_cons_of_ne_nil fun h => hts h
    rw [joinChars, ih, List.intercalate_cons_cons]
    simp

section Ends

variable {sep : List Char} {ts : List (List Char)}

theorem head?_joinChars (h : ∀ t ∈ ts, t ≠ []) : (joinChars sep ts).head? = ts.flatten.head? := by
  cases ts with
  | nil => rfl
  | cons t ts =>
    obtain ⟨c, cs, rfl⟩ := List.exists_cons_of_ne_nil (h t List.mem_cons_self)
    cases ts <;> rfl

theorem getLast?_joinChars (h : ∀ t ∈ ts, t ≠ []) : (joinChars sep ts).getLast? = ts.flatten.getLast? := by
  induction ts using joinChars.induct with
  | case1 => rfl
  | case2 t => simp [joinChars]
  | case3 t ts hts ih =>
    have hrest := ih fun t ht => h t (List.mem_cons_of_mem _ ht)
    obtain ⟨t', ts, rfl⟩ := List.exists_cons_of_ne_nil fun h => hts h
    have hne : (t' :: ts).flatten ≠ [] := by
      have := h t' (by simp)
      simp [this]
    have hne' : joinChars sep (t' :: ts) ≠ [] := by
      rw [← List.getLast?_isSome, hrest, List.getLast?_isSome]
      exact hne
    rw [joinChars, List.getLast?_append_of_ne_nil _ hne', hrest]
    · exact (List.getLast?_append_of_ne_nil t hne).symm
    · exact hts

end Ends

/-- **Grouping without a limit** cuts a text into threes, in the one way in which this can be done, and puts a
comma between any two groups that stand side by side and nowhere else: the text begins and ends as it did. A
text without commas is found again by leaving them out, and its groups by splitting at them. So it is with
every limit for which the text with its commas has room. -/
theorem group_none_thirds (cs : List Char) :
    ∃ parts, Thirds parts ∧ parts.flatten = cs ∧
      (∀ parts', Thirds parts' → parts'.flatten = cs → parts' = parts) ∧
      group none cs = joinChars [','] parts ∧
      (group none cs).head? = cs.head? ∧ (group none cs).getLast? = cs.getLast? ∧
      (',' ∉ cs → withoutCommas (group none cs) = cs ∧
        (group none cs).head? ≠ some ',' ∧ (group none cs).getLast? ≠ some ',' ∧
        (cs ≠ [] → (group none cs).splitOn ',' = parts)) ∧
      ∀ w, 4 * ((cs.length + 2) / 3) ≤ w → group (some w) cs = group none cs := by
  have hthirds := thirds_groupsRev 0 cs.reverse
  have hflatten : (groupsRev none 0 cs.reverse).reverse.flatten = cs := by
    rw [flatten_groupsRev_none, List.reverse_reverse]
  have hlimit (w : Nat) (hw : 4 * ((cs.length + 2) / 3) ≤ w) : group (some w) cs = group none cs := by
    rw [group, groupsRev_some_eq _ (by rwa [Nat.zero_add, List.length_reverse]), ← group]
  have hgroup : group none cs = joinChars [','] (groupsRev none 0 cs.reverse).reverse := rfl
  generalize (groupsRev none 0 cs.reverse).reverse = parts at hthirds hflatten hgroup
  have hne : ∀ part ∈ parts, part ≠ [] := fun _ => hthirds.ne_nil
  have hhead : (group none cs).head? = cs.head? := by rw [hgroup, head?_joinChars hne, hflatten]
  have hlast : (group none cs).getLast? = cs.getLast? := by rw [hgroup, getLast?_joinChars hne, hflatten]
  refine ⟨parts, hthirds, hflatten, fun parts' h h' => h.unique hthirds (h'.trans hflatten.symm), hgroup,
    hhead, hlast, fun hcomma => ⟨withoutCommas_group_none hcomma, ?_, ?_, fun hcs => ?_⟩, hlimit⟩
  · rw [hhead]
    exact fun h => hcomma (List.mem_of_head? h)
  · rw [hlast]
    exact fun h => hcomma (List.mem_of_getLast? h)
  · have hparts : ∀ part ∈ parts, ',' ∉ part := fun part hpart hmem =>
      hcomma (hflatten ▸ List.mem_flatten.2 ⟨part, hpart, hmem⟩)
    rw [hgroup, joinChars_eq, List.splitOn_intercalate ',' hparts]
    rintro rfl
    exact hcs hflatten.symm

/-- Seven digits make three groups, also within nine characters. -/
example : group none "1234567".toList = "1,234,567".toList ∧
    group (some 9) "1234567".toList = "1,234,567".toList := by decide +kernel

end ChartTemplate
