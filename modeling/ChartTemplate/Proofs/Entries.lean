import ChartTemplate.Entries
import Mathlib.Data.List.Nodup

/-!
# Laws of named entries

`insert` against the two views of entries, the names in order (`keys`) and the value of a name
(`get?`). `insertAll` writes a list of entries one after the other; `insertAll_eq_override` says
where each write ends up: the last write of a name gives its value, in its place if the name was
there, and new names follow in the order of their first writes.
-/

namespace ChartTemplate.Entries

variable {α β : Type} {es ws : Entries α} {k key : String} {v w : α}

/-! ## Names and values -/

@[simp] theorem keys_nil : keys ([] : Entries α) = [] := rfl

@[simp] theorem keys_cons (e : String × α) (es : Entries α) : keys (e :: es) = e.1 :: keys es := rfl

@[simp] theorem keys_append (es ws : Entries α) : keys (es ++ ws) = keys es ++ keys ws :=
  List.map_append

@[simp] theorem get?_nil (key : String) : get? ([] : Entries α) key = none := rfl

theorem get?_cons (e : String × α) (es : Entries α) (key : String) :
    get? (e :: es) key = if e.1 = key then some e.2 else get? es key := by
  unfold get?
  by_cases h : e.1 = key <;> simp [h]

theorem get?_eq_none_iff : get? es key = none ↔ key ∉ keys es := by
  induction es with
  | nil => simp
  | cons e es ih =>
    rw [get?_cons, keys_cons, List.mem_cons, not_or, ← ih]
    by_cases h : e.1 = key
    · simp [h]
    · simp [h, Ne.symm h]

theorem get?_isSome_iff : (get? es key).isSome ↔ key ∈ keys es := by
  rw [← not_iff_not, ← get?_eq_none_iff, Option.not_isSome_iff_eq_none]

theorem contains_iff : contains es key = true ↔ key ∈ keys es := by
  simp [contains, keys]

theorem contains_eq_isSome : contains es key = (get? es key).isSome := by
  rw [Bool.eq_iff_iff, contains_iff, get?_isSome_iff]

theorem mem_of_get? (h : get? es key = some v) : (key, v) ∈ es := by
  obtain ⟨e, he, hv⟩ := Option.map_eq_some_iff.1 h
  obtain rfl : e.1 = key := by simpa using List.find?_some he
  exact hv ▸ List.mem_of_find?_eq_some he

theorem mem_keys_of_mem (h : (key, v) ∈ es) : key ∈ keys es :=
  List.mem_map.2 ⟨_, h, rfl⟩

theorem get?_of_mem (hnodup : (keys es).Nodup) (h : (key, v) ∈ es) : get? es key = some v := by
  induction es with
  | nil => exact absurd h List.not_mem_nil
  | cons e es ih =>
    rw [keys_cons, List.nodup_cons] at hnodup
    rw [get?_cons]
    rcases List.mem_cons.1 h with rfl | h
    · simp
    · have hne : e.1 ≠ key := by
        rintro rfl
        exact hnodup.1 (mem_keys_of_mem h)
      rw [if_neg hne]
      exact ih hnodup.2 h

theorem eq_of_get?_eq (hnodup : (keys es).Nodup) (hkeys : keys es = keys ws)
    (hget : ∀ key, get? es key = get? ws key) : es = ws := by
  induction es generalizing ws with
  | nil =>
    cases ws with
    | nil => rfl
    | cons w ws => simp at hkeys
  | cons e es ih =>
    cases ws with
    | nil => simp at hkeys
    | cons w ws =>
      rw [keys_cons, keys_cons, List.cons.injEq] at hkeys
      rw [keys_cons, List.nodup_cons] at hnodup
      have hhead := hget e.1
      rw [get?_cons, get?_cons, if_pos rfl, if_pos hkeys.1.symm] at hhead
      rw [ih hnodup.2 hkeys.2, Prod.ext hkeys.1 (Option.some.inj hhead)]
      intro key
      have htail := hget key
      rw [get?_cons, get?_cons, ← hkeys.1] at htail
      by_cases hk : e.1 = key
      · subst hk
        rw [get?_eq_none_iff.2 hnodup.1, get?_eq_none_iff.2 (hkeys.2 ▸ hnodup.1)]
      · rwa [if_neg hk, if_neg hk] at htail

theorem get?_append (es ws : Entries α) (key : String) :
    get? (es ++ ws) key = (get? es key).or (get? ws key) := by
  induction es with
  | nil => rfl
  | cons e es ih =>
    rw [List.cons_append, get?_cons, get?_cons, ih]
    split <;> rfl

theorem get?_map (f : String → α → β) (es : Entries α) (key : String) :
    get? (es.map fun e => (e.1, f e.1 e.2)) key = (get? es key).map (f key) := by
  induction es with
  | nil => rfl
  | cons e es ih =>
    rw [List.map_cons, get?_cons, get?_cons, ih]
    by_cases h : e.1 = key
    · subst h; simp
    · simp [h]

@[simp] theorem keys_map (f : String → α → β) (es : Entries α) :
    keys (es.map fun e => (e.1, f e.1 e.2)) = keys es := by
  simp [keys]

/-! ## One write -/

theorem insert_of_not_mem (h : key ∉ keys es) (v : α) : insert es key v = es ++ [(key, v)] := by
  induction es with
  | nil => rfl
  | cons e es ih =>
    rw [keys_cons, List.mem_cons, not_or] at h
    rw [insert, if_neg (by simpa using Ne.symm h.1), ih h.2, List.cons_append]

theorem keys_insert_of_mem (h : key ∈ keys es) (v : α) : keys (insert es key v) = keys es := by
  induction es with
  | nil => exact absurd h List.not_mem_nil
  | cons e es ih =>
    rw [insert]
    split
    · rename_i he
      simp [beq_iff_eq.1 he]
    · rename_i he
      rw [keys_cons, keys_cons, ih]
      exact (List.mem_cons.1 h).resolve_left fun hk => he (by simp [hk])

theorem keys_insert_of_not_mem (h : key ∉ keys es) (v : α) :
    keys (insert es key v) = keys es ++ [key] := by
  rw [insert_of_not_mem h, keys_append, keys_cons, keys_nil]

theorem mem_keys_insert : k ∈ keys (insert es key v) ↔ k = key ∨ k ∈ keys es := by
  by_cases h : key ∈ keys es
  · rw [keys_insert_of_mem h]
    exact ⟨Or.inr, fun hk => hk.elim (fun hk => hk ▸ h) id⟩
  · rw [keys_insert_of_not_mem h, List.mem_append, List.mem_singleton, or_comm]

theorem nodup_keys_insert (hnodup : (keys es).Nodup) (key : String) (v : α) :
    (keys (insert es key v)).Nodup := by
  by_cases h : key ∈ keys es
  · rwa [keys_insert_of_mem h]
  · rw [keys_insert_of_not_mem h]
    exact List.Nodup.append hnodup (List.nodup_singleton key)
      (List.disjoint_singleton.2 h)

theorem get?_insert (es : Entries α) (key k : String) (v : α) :
    get? (insert es key v) k = if key = k then some v else get? es k := by
  induction es with
  | nil => rw [insert, get?_cons]
  | cons e es ih =>
    rw [insert]
    split
    · rename_i he
      rw [get?_cons, get?_cons, beq_iff_eq.1 he]
      split <;> rfl
    · rename_i he
      rw [get?_cons, get?_cons, ih]
      by_cases hk : e.1 = k
      · rw [if_pos hk, if_pos hk, if_neg fun h => he (by simp [hk, h])]
      · rw [if_neg hk, if_neg hk]

@[simp] theorem get?_insert_self (es : Entries α) (key : String) (v : α) :
    get? (insert es key v) key = some v := by
  rw [get?_insert, if_pos rfl]

theorem get?_insert_of_ne (h : key ≠ k) (v : α) : get? (insert es key v) k = get? es k := by
  rw [get?_insert, if_neg h]

theorem mem_insert {e : String × α} (h : e ∈ insert es key v) : e = (key, v) ∨ e ∈ es := by
  induction es with
  | nil => exact .inl (List.mem_singleton.1 h)
  | cons e' es ih =>
    rw [insert] at h
    split at h
    · exact (List.mem_cons.1 h).imp id (List.mem_cons_of_mem _)
    · rcases List.mem_cons.1 h with rfl | h
      · exact .inr List.mem_cons_self
      · exact (ih h).imp id (List.mem_cons_of_mem _)

theorem insert_eq_self (h : get? es key = some v) : insert es key v = es := by
  induction es with
  | nil => simp at h
  | cons e es ih =>
    rw [get?_cons] at h
    rw [insert]
    by_cases he : e.1 = key
    · rw [if_pos he] at h
      rw [if_pos (by simpa using he), ← he, ← Option.some.inj h]
    · rw [if_neg he] at h
      rw [if_neg (by simpa using he), ih h]

@[simp] theorem insert_insert (es : Entries α) (key : String) (v w : α) :
    insert (insert es key v) key w = insert es key w := by
  induction es with
  | nil => simp [insert]
  | cons e es ih =>
    by_cases he : e.1 = key
    · simp [insert, he]
    · simp [insert, he, ih]

theorem insert_comm (hne : k ≠ key) (h : key ∈ keys es) (v w : α) :
    insert (insert es k v) key w = insert (insert es key w) k v := by
  induction es with
  | nil => exact absurd h List.not_mem_nil
  | cons e es ih =>
    by_cases hk : e.1 = k
    · subst hk
      simp [insert, hne]
    · by_cases hkey : e.1 = key
      · subst hkey
        simp [insert, Ne.symm hne]
      · simp only [insert, beq_eq_false_iff_ne.2 hk, beq_eq_false_iff_ne.2 hkey, Bool.false_eq_true,
          if_false]
        rw [ih ((List.mem_cons.1 h).resolve_left fun he => hkey he.symm)]

theorem insert_append_cons (hes : key ∉ keys es) (v w : α) (ws : Entries α) :
    insert (es ++ (key, v) :: ws) key w = es ++ (key, w) :: ws := by
  induction es with
  | nil => simp [insert]
  | cons e es ih =>
    rw [keys_cons, List.mem_cons, not_or] at hes
    rw [List.cons_append, insert, if_neg (by simpa using Ne.symm hes.1), ih hes.2, List.cons_append]

theorem modify_eq_insert (hnodup : (keys es).Nodup) (h : get? es key = some v) (f : α → α) :
    modify es key f = insert es key (f v) := by
  induction es with
  | nil => simp at h
  | cons e es ih =>
    rw [keys_cons, List.nodup_cons] at hnodup
    rw [get?_cons] at h
    unfold modify at ih ⊢
    rw [insert, List.map_cons]
    by_cases he : e.1 = key
    · rw [if_pos he] at h
      rw [if_pos (by simpa using he), if_pos (by simpa using he), Option.some.inj h, he]
      refine congrArg _ (List.map_congr_left fun e' he' => ?_) |>.trans (by rw [List.map_id])
      exact if_neg fun hk => hnodup.1 (he.trans (beq_iff_eq.1 hk).symm ▸ List.mem_map.2 ⟨e', he', rfl⟩)
    · rw [if_neg he] at h
      rw [if_neg (by simpa using he), if_neg (by simpa using he), ih hnodup.2 h]

/-! ## A list of writes -/

/-- The entries after writing each of `ws` in turn. -/
def insertAll (es ws : Entries α) : Entries α :=
  ws.foldl (fun acc e => insert acc e.1 e.2) es

@[simp] theorem insertAll_nil (es : Entries α) : insertAll es [] = es := rfl

@[simp] theorem insertAll_cons (es : Entries α) (e : String × α) (ws : Entries α) :
    insertAll es (e :: ws) = insertAll (insert es e.1 e.2) ws := rfl

theorem insertAll_append (es ws us : Entries α) :
    insertAll es (ws ++ us) = insertAll (insertAll es ws) us :=
  List.foldl_append

theorem ofList_eq_self (h : (keys es).Nodup) : ofList es = es := by
  have happend (ws : Entries α) (hnodup : (keys ws ++ keys es).Nodup) :
      insertAll ws es = ws ++ es := by
    induction es generalizing ws with
    | nil => rw [insertAll_nil, List.append_nil]
    | cons e es ih =>
      rw [keys_cons, List.nodup_cons] at h
      have hws : e.1 ∉ keys ws := fun hw =>
        (List.nodup_append.1 hnodup).2.2 e.1 hw e.1 List.mem_cons_self rfl
      rw [insertAll_cons, insert_of_not_mem hws, ih h.2 _ (by simpa using hnodup),
        List.append_assoc, List.singleton_append]
  exact happend [] h

theorem mem_insertAll {e : String × α} (h : e ∈ insertAll es ws) : e ∈ es ∨ e ∈ ws := by
  induction ws generalizing es with
  | nil => exact .inl h
  | cons w ws ih =>
    rcases ih h with h | h
    · exact (mem_insert h).elim (fun he => .inr (he ▸ List.mem_cons_self)) .inl
    · exact .inr (List.mem_cons_of_mem _ h)

theorem nodup_keys_insertAll (hnodup : (keys es).Nodup) (ws : Entries α) :
    (keys (insertAll es ws)).Nodup := by
  induction ws generalizing es with
  | nil => exact hnodup
  | cons e ws ih => exact ih (nodup_keys_insert hnodup _ _)

theorem insert_insertAll (hws : key ∉ keys ws) (hes : key ∈ keys es) (v : α) :
    insert (insertAll es ws) key v = insertAll (insert es key v) ws := by
  induction ws generalizing es with
  | nil => rfl
  | cons e ws ih =>
    rw [keys_cons, List.mem_cons, not_or] at hws
    rw [insertAll_cons, insertAll_cons, ih hws.2 (mem_keys_insert.2 (.inr hes)),
      insert_comm (Ne.symm hws.1) hes]

/-- A value is of no account if its name is written later. -/
theorem insertAll_insert (hws : key ∈ keys ws) (hes : key ∈ keys es) (v : α) :
    insertAll (insert es key v) ws = insertAll es ws := by
  induction ws generalizing es with
  | nil => exact absurd hws List.not_mem_nil
  | cons e ws ih =>
    rw [insertAll_cons, insertAll_cons]
    by_cases he : e.1 = key
    · rw [he, insert_insert]
    · rw [← insert_comm he hes,
        ih ((List.mem_cons.1 hws).resolve_left fun h => he h.symm) (mem_keys_insert.2 (.inr hes))]

/-- The last value that a list of writes gives to a name. -/
def lastWrite? (ws : Entries α) (key : String) : Option α :=
  get? ws.reverse key

theorem lastWrite?_cons (e : String × α) (ws : Entries α) (key : String) :
    lastWrite? (e :: ws) key = (lastWrite? ws key).or (if e.1 = key then some e.2 else none) := by
  rw [lastWrite?, List.reverse_cons, get?_append, get?_cons, get?_nil, lastWrite?]

theorem lastWrite?_eq_none_iff : lastWrite? ws key = none ↔ key ∉ keys ws := by
  rw [lastWrite?, get?_eq_none_iff, keys, keys, List.map_reverse, List.mem_reverse]

theorem mem_of_lastWrite? (h : lastWrite? ws key = some v) : (key, v) ∈ ws :=
  List.mem_reverse.1 (mem_of_get? h)

theorem lastWrite?_map (f : α → β) (ws : Entries α) (key : String) :
    lastWrite? (ws.map fun e => (e.1, f e.2)) key = (lastWrite? ws key).map f := by
  rw [lastWrite?, ← List.map_reverse, get?_map fun _ v => f v]
  rfl

theorem get?_insertAll (es ws : Entries α) (key : String) :
    get? (insertAll es ws) key = (lastWrite? ws key).or (get? es key) := by
  induction ws generalizing es with
  | nil => rfl
  | cons e ws ih =>
    rw [insertAll_cons, ih, get?_insert, lastWrite?_cons, Option.or_assoc]
    congr 1
    split <;> rfl

theorem get?_insertAll_of_mem (es : Entries α) (h : key ∈ keys ws) :
    ∃ v, (key, v) ∈ ws ∧ get? (insertAll es ws) key = some v := by
  cases hlast : lastWrite? ws key with
  | none => exact absurd h (lastWrite?_eq_none_iff.1 hlast)
  | some v => exact ⟨v, mem_of_lastWrite? hlast, by rw [get?_insertAll, hlast, Option.some_or]⟩

/-- The names of `ws` that are new, in the order in which they first come. -/
def newNames (known : List String) : List String → List String
  | [] => []
  | name :: names =>
    if known.contains name then newNames known names
    else name :: newNames (name :: known) names

/-- Entries after some writes: each entry in its place with the last value written under its name,
and then the new names. -/
def override (es ws : Entries α) : Entries α :=
  es.map (fun e => (e.1, (lastWrite? ws e.1).getD e.2)) ++
    (newNames (keys es) (keys ws)).filterMap fun name => (lastWrite? ws name).map (name, ·)

theorem mem_newNames {known names : List String} {name : String} :
    name ∈ newNames known names ↔ name ∈ names ∧ name ∉ known := by
  induction names generalizing known with
  | nil => simp [newNames]
  | cons n names ih =>
    rw [newNames]
    by_cases hn : n ∈ known
    · rw [if_pos (by simpa using hn), ih, List.mem_cons]
      constructor
      · exact fun h => ⟨.inr h.1, h.2⟩
      · rintro ⟨rfl | h, hk⟩
        · exact absurd hn hk
        · exact ⟨h, hk⟩
    · rw [if_neg (by simpa using hn), List.mem_cons, List.mem_cons, ih, List.mem_cons, not_or]
      constructor
      · rintro (rfl | h)
        · exact ⟨.inl rfl, hn⟩
        · exact ⟨.inr h.1, h.2.2⟩
      · rintro ⟨rfl | h, hk⟩
        · exact .inl rfl
        · exact (em (name = n)).imp id fun hne => ⟨h, hne, hk⟩

theorem newNames_congr {known known' : List String} (h : ∀ name, name ∈ known ↔ name ∈ known')
    (names : List String) : newNames known names = newNames known' names := by
  induction names generalizing known known' with
  | nil => rfl
  | cons name names ih =>
    simp only [newNames, List.contains_iff_mem, h name]
    have hcons : ∀ n, n ∈ name :: known ↔ n ∈ name :: known' := fun n => by simp [h n]
    rw [ih h, ih hcons]

theorem keys_insertAll (es ws : Entries α) :
    keys (insertAll es ws) = keys es ++ newNames (keys es) (keys ws) := by
  induction ws generalizing es with
  | nil => simp [newNames]
  | cons e ws ih =>
    rw [insertAll_cons, ih, keys_cons, newNames]
    by_cases he : e.1 ∈ keys es
    · rw [if_pos (by simpa using he), keys_insert_of_mem he]
    · rw [if_neg (by simpa using he), keys_insert_of_not_mem he, List.append_assoc,
        List.singleton_append]
      congr 2
      exact newNames_congr (fun name => by simp [or_comm]) _

theorem mem_keys_ofList {es : List (String × α)} {name : String} :
    name ∈ keys (ofList es) ↔ name ∈ keys es := by
  show name ∈ keys (insertAll [] es) ↔ _
  rw [keys_insertAll]
  simp [mem_newNames]

theorem get?_filterMap (f : String → Option α) (names : List String) (key : String) :
    get? (names.filterMap fun name => (f name).map (name, ·)) key =
      if key ∈ names then f key else none := by
  induction names with
  | nil => rfl
  | cons name names ih =>
    by_cases hname : name = key
    · subst hname
      cases hf : f name with
      | none => rw [List.filterMap_cons_none (by simp [hf]), ih, hf, ite_self, ite_self]
      | some v => simp [hf, get?_cons]
    · cases hf : f name with
      | none => rw [List.filterMap_cons_none (by simp [hf]), ih]; simp [Ne.symm hname]
      | some v =>
        rw [List.filterMap_cons_some (by rw [hf]; rfl), get?_cons, if_neg hname, ih]
        simp [Ne.symm hname]

theorem keys_filterMap {f : String → Option α} {names : List String}
    (h : ∀ name ∈ names, (f name).isSome) :
    keys (names.filterMap fun name => (f name).map (name, ·)) = names := by
  induction names with
  | nil => rfl
  | cons name names ih =>
    obtain ⟨v, hv⟩ := Option.isSome_iff_exists.1 (h name List.mem_cons_self)
    rw [List.filterMap_cons_some (by rw [hv]; rfl), keys_cons,
      ih fun n hn => h n (List.mem_cons_of_mem _ hn)]

theorem newNames_eq_nil {known names : List String} (h : ∀ name ∈ names, name ∈ known) :
    newNames known names = [] :=
  List.eq_nil_iff_forall_not_mem.2 fun name hname =>
    (mem_newNames.1 hname).2 (h name (mem_newNames.1 hname).1)

theorem filter_override (es ws : Entries α) :
    (override es ws).filter (fun e => e.1 ∉ keys ws) = es.filter fun e => e.1 ∉ keys ws := by
  have hnew : ((newNames (keys es) (keys ws)).filterMap fun name =>
      (lastWrite? ws name).map (name, ·)).filter (fun e => e.1 ∉ keys ws) = [] := by
    refine List.filter_eq_nil_iff.2 fun e he => ?_
    obtain ⟨name, hname, he⟩ := List.mem_filterMap.1 he
    obtain ⟨v, -, rfl⟩ := Option.map_eq_some_iff.1 he
    simpa using (mem_newNames.1 hname).1
  rw [override, List.filter_append, hnew, List.append_nil]
  clear hnew
  induction es with
  | nil => rfl
  | cons e es ih =>
    by_cases he : e.1 ∈ keys ws
    · simpa [he] using ih
    · simpa [he, lastWrite?_eq_none_iff.2 he] using ih

/-- **Writes one after the other**: the last one of a name counts, and new names are appended. -/
theorem insertAll_eq_override (hnodup : (keys es).Nodup) (ws : Entries α) :
    insertAll es ws = override es ws := by
  refine eq_of_get?_eq (nodup_keys_insertAll hnodup ws) ?_ fun key => ?_
  · rw [keys_insertAll, override, keys_append, keys_map fun name v => (lastWrite? ws name).getD v,
      keys_filterMap]
    intro name hname
    rw [Option.isSome_iff_ne_none, Ne, lastWrite?_eq_none_iff, not_not]
    exact (mem_newNames.1 hname).1
  · rw [get?_insertAll, override, get?_append, get?_map fun name v => (lastWrite? ws name).getD v,
      get?_filterMap]
    cases hlast : lastWrite? ws key with
    | none =>
      cases get? es key <;> simp
    | some v =>
      cases hes : get? es key with
      | some w => simp
      | none =>
        have hkey : key ∈ keys ws := by
          by_contra h
          rw [lastWrite?_eq_none_iff.2 h] at hlast
          exact absurd hlast (Option.some_ne_none v).symm
        rw [if_pos (mem_newNames.2 ⟨hkey, get?_eq_none_iff.1 hes⟩)]
        rfl

end ChartTemplate.Entries
