import ChartTemplate.Proofs.Walk.Visits

/-!
# Addresses

An address is the list of steps from a document to a place in it. Paths are no addresses: two members
can have the same path.

* `Pass.mem_visits_idle_iff` : a walk that only looks visits the members that hold no array, at every
  address.
* `Pass.Keeps` : a pass keeps an address if no member on the way is filled by a sibling or given a
  text. What the pass leaves there is its outcome on what was there (`Pass.at?_node_of_keeps`), and
  objects are nowhere else (`Pass.keeps_of_at?_node`).
-/

namespace ChartTemplate

open Entries (keys get? insertAll)

/-- A step from a document to one that it holds. -/
inductive Step where
  | key (k : String)
  | index (i : Nat)
deriving DecidableEq, Repr

def Json.at? (j : Json) : List Step → Option Json
  | [] => some j
  | .key k :: a =>
    match j with
    | .obj ms => (Entries.get? ms k).bind (·.at? a)
    | _ => none
  | .index i :: a =>
    match j with
    | .arr js => js[i]?.bind (·.at? a)
    | _ => none

def Place.along (pl : Place) : List Step → Place
  | [] => pl
  | .key k :: a => (Place.member pl.path k).along a
  | .index i :: a => (pl.nth i).along a

theorem Json.at?_append (j : Json) (a b : List Step) :
    j.at? (a ++ b) = (j.at? a).bind (·.at? b) := by
  induction a generalizing j with
  | nil => rfl
  | cons step a ih =>
    cases step with
    | key k =>
      cases j with
      | obj ms => cases hget : Entries.get? ms k <;> simp [Json.at?, hget, ih]
      | _ => rfl
    | index i =>
      cases j with
      | arr js => cases hget : js[i]? <;> simp [Json.at?, hget, ih]
      | _ => rfl

theorem Json.at?_concat_key {j : Json} {a : List Step} {k : String} {v : Json} :
    j.at? (a ++ [.key k]) = some v ↔ ∃ ms, j.at? a = some (.obj ms) ∧ Entries.get? ms k = some v := by
  rw [Json.at?_append]
  cases j.at? a with
  | none => simp
  | some x => cases x <;> simp [Json.at?]

theorem Json.at?_scalar {j : Json} (hj : j.isComposite = false) {a : List Step} (ha : a ≠ []) :
    j.at? a = none := by
  cases a with
  | nil => exact absurd rfl ha
  | cons step a => cases step <;> cases j <;> first | rfl | cases hj

theorem at?_columnJson_ne_obj (cells : List Cell) (a : List Step) (ms : Members) :
    (columnJson cells).at? a ≠ some (.obj ms) := by
  intro h
  match a with
  | [] => cases h
  | .key k :: a => cases h
  | .index i :: a =>
    obtain ⟨v, hv, h⟩ := Option.bind_eq_some_iff.1 h
    obtain ⟨cell, -, rfl⟩ := List.mem_map.1 (List.mem_of_getElem? hv)
    have hcell := isComposite_cell cell
    by_cases ha : a = []
    · subst ha
      rw [Option.some.inj h] at hcell
      cases hcell
    · rw [Json.at?_scalar hcell ha] at h
      cases h

namespace Place

theorem along_append (pl : Place) (a b : List Step) : pl.along (a ++ b) = (pl.along a).along b := by
  induction a generalizing pl with
  | nil => rfl
  | cons step a ih => cases step <;> exact ih _

end Place

namespace Pass

variable {m : MemberVisit}

/-! ## Visits by address -/

theorem mem_memberVisits_idle {pl : Place} {ms : Members} :
    m ∈ idle.memberVisits pl [] ms ↔
      ∃ k v, (k, v) ∈ ms ∧
        ((v.isArray = false ∧ m = ⟨pl.path, k, v⟩) ∨ m ∈ idle.visits (.member pl.path k) v) := by
  induction ms with
  | nil => simp [memberVisits]
  | cons e ms ih =>
    obtain ⟨k, v⟩ := e
    rw [memberVisits_idle_cons, List.mem_append, List.mem_append, ih]
    constructor
    · rintro ((hm | hm) | ⟨k', v', hmem, hm⟩)
      · split at hm
        · exact absurd hm List.not_mem_nil
        · rename_i harr
          exact ⟨k, v, List.mem_cons_self, .inl ⟨by simpa using harr, List.mem_singleton.1 hm⟩⟩
      · exact ⟨k, v, List.mem_cons_self, .inr hm⟩
      · exact ⟨k', v', List.mem_cons_of_mem _ hmem, hm⟩
    · rintro ⟨k', v', hmem, hm⟩
      rcases List.mem_cons.1 hmem with heq | hmem
      · cases heq
        rcases hm with ⟨harr, rfl⟩ | hm
        · exact .inl (.inl (by simp [harr]))
        · exact .inl (.inr hm)
      · exact .inr ⟨k', v', hmem, hm⟩

theorem mem_itemVisits_idle {pl : Place} {i : Nat} {js : List Json} :
    m ∈ idle.itemVisits pl i js ↔ ∃ n j, js[n]? = some j ∧ m ∈ idle.visits (pl.nth (i + n)) j := by
  induction js generalizing i with
  | nil => simp [itemVisits]
  | cons j js ih =>
    rw [itemVisits, List.mem_append, ih]
    constructor
    · rintro (hm | ⟨n, j', hj', hm⟩)
      · exact ⟨0, j, rfl, hm⟩
      · exact ⟨n + 1, j', hj', by rwa [Nat.add_assoc, Nat.add_comm 1 n] at hm⟩
    · rintro ⟨n, j', hj', hm⟩
      cases n with
      | zero => exact .inl (Option.some.inj hj' ▸ hm)
      | succ n => exact .inr ⟨n, j', hj', by rwa [Nat.add_assoc, Nat.add_comm 1 n]⟩

theorem size_le_of_mem_items {js : List Json} {j : Json} (h : j ∈ js) :
    j.size ≤ sizeOfItems js := by
  induction js with
  | nil => exact absurd h List.not_mem_nil
  | cons j' js ih =>
    rw [sizeOfItems]
    rcases List.mem_cons.1 h with rfl | h
    · exact Nat.le_add_right _ _
    · exact Nat.le_add_left_of_le (ih h)

theorem size_le_of_mem_members {ms : Members} {k : String} {v : Json} (h : (k, v) ∈ ms) :
    v.size ≤ sizeOfMembers ms := by
  induction ms with
  | nil => exact absurd h List.not_mem_nil
  | cons e ms ih =>
    rw [sizeOfMembers]
    rcases List.mem_cons.1 h with rfl | h
    · exact Nat.le_add_right _ _
    · exact Nat.le_add_left_of_le (ih h)

theorem exists_address_of_visit (pl : Place) (j : Json) (hj : j.Distinct)
    (hm : m ∈ idle.visits pl j) :
    ∃ a ms, j.at? a = some (.obj ms) ∧ (pl.along a).path = m.path ∧
      get? ms m.key = some m.value ∧ m.value.isArray = false := by
  match j with
  | .arr js =>
    rw [visits] at hm
    obtain ⟨n, x, hget, hm⟩ := mem_itemVisits_idle.1 hm
    have hmem := List.mem_of_getElem? hget
    obtain ⟨a, ms, hat, hrest⟩ :=
      exists_address_of_visit (pl.nth (0 + n)) x (distinctItems_iff.1 (distinct_arr.1 hj) x hmem) hm
    refine ⟨.index n :: a, ms, ?_, ?_⟩
    · rw [Json.at?, hget]
      exact hat
    · rwa [Nat.zero_add] at hrest
  | .obj ms =>
    rw [visits] at hm
    obtain ⟨hnodup, hdist⟩ := distinct_obj.1 hj
    obtain ⟨k, v, hmem, ⟨harr, rfl⟩ | hm⟩ := mem_memberVisits_idle.1 hm
    · exact ⟨[], ms, rfl, rfl, Entries.get?_of_mem hnodup hmem, harr⟩
    · obtain ⟨a, ms', hat, hrest⟩ :=
        exists_address_of_visit (.member pl.path k) v (distinctMembers_iff.1 hdist _ hmem) hm
      refine ⟨.key k :: a, ms', ?_, hrest⟩
      rw [Json.at?, Entries.get?_of_mem hnodup hmem]
      exact hat
  | .null | .bool _ | .num _ | .str _ => exact absurd hm List.not_mem_nil
termination_by j.size
decreasing_by
  · rw [size_arr]
    have := size_le_of_mem_items hmem
    omega
  · rw [size_obj]
    have := size_le_of_mem_members hmem
    omega

theorem visit_of_address {pl : Place} {j : Json} {a : List Step} {ms : Members} {k : String}
    {v : Json} (hat : j.at? a = some (.obj ms)) (hget : get? ms k = some v)
    (harr : v.isArray = false) : ⟨(pl.along a).path, k, v⟩ ∈ idle.visits pl j := by
  induction a generalizing pl j with
  | nil =>
    rw [Option.some.inj hat, visits]
    exact mem_memberVisits_idle.2 ⟨k, v, Entries.mem_of_get? hget, .inl ⟨harr, rfl⟩⟩
  | cons step a ih =>
    cases step with
    | key k' =>
      cases j with
      | obj ms' =>
        obtain ⟨x, hx, hat⟩ := Option.bind_eq_some_iff.1 hat
        rw [visits]
        exact mem_memberVisits_idle.2 ⟨k', x, Entries.mem_of_get? hx, .inr (ih hat)⟩
      | _ => cases hat
    | index i =>
      cases j with
      | arr js =>
        obtain ⟨x, hx, hat⟩ := Option.bind_eq_some_iff.1 hat
        rw [visits]
        exact mem_itemVisits_idle.2 ⟨i, x, hx, by rw [Nat.zero_add]; exact ih hat⟩
      | _ => cases hat

/-- **Visits by address**: a walk that only looks visits the members that hold no array, at every
address at which there is an object. -/
theorem mem_visits_idle_iff {pl : Place} {j : Json} (hj : j.Distinct) :
    m ∈ idle.visits pl j ↔
      ∃ a ms, j.at? a = some (.obj ms) ∧ (pl.along a).path = m.path ∧
        get? ms m.key = some m.value ∧ m.value.isArray = false := by
  constructor
  · exact exists_address_of_visit pl j hj
  · rintro ⟨a, ms, hat, hpath, hget, harr⟩
    have h : ⟨(pl.along a).path, m.key, m.value⟩ ∈ idle.visits pl j :=
      visit_of_address hat hget harr
    rwa [hpath] at h

/-! ## What a pass keeps -/

variable {p : Pass}

/-- The members on the way from an object to an address are neither filled by siblings nor given a
text. -/
def Keeps (p : Pass) (pl : Place) (j : Json) : List Step → Prop
  | [] => True
  | .key k :: a =>
    ∃ ms v, j = .obj ms ∧ get? ms k = some v ∧ k ∉ keys (p.filled pl [] ms) ∧
      p.settled? pl k v = none ∧ p.Keeps (.member pl.path k) v a
  | .index i :: a => ∃ js v, j = .arr js ∧ js[i]? = some v ∧ p.Keeps (pl.nth i) v a

theorem items_getElem? (pl : Place) (i n : Nat) (js : List Json) :
    (p.items pl i js)[n]? = js[n]?.map (p.node (pl.nth (i + n))) := by
  induction js generalizing i n with
  | nil => rfl
  | cons j js ih =>
    cases n with
    | zero => rfl
    | succ n =>
      rw [items, List.getElem?_cons_succ, List.getElem?_cons_succ, ih, Nat.add_assoc,
        Nat.add_comm 1 n]

theorem filled_eq_nil_iff {pl : Place} {ms : Members} :
    p.filled pl [] ms = [] ↔ ∀ m ∈ ms, p.fires? pl [] m.1 m.2 = none := by
  induction ms with
  | nil => simp [filled]
  | cons m ms ih =>
    obtain ⟨k, v⟩ := m
    rw [filled, List.forall_mem_cons]
    cases hfires : p.fires? pl [] k v with
    | none => simpa using ih
    | some f => simp

theorem exists_fires_of_mem_filled {pl : Place} {taken : List String} {ms : Members}
    {f : String × Json} (hf : f ∈ p.filled pl taken ms) :
    ∃ m ∈ ms, ∃ taken, p.fires? pl taken m.1 m.2 = some f := by
  induction ms generalizing taken with
  | nil => exact absurd hf List.not_mem_nil
  | cons m ms ih =>
    rw [filled] at hf
    rcases List.mem_append.1 hf with hf | hf
    · exact ⟨m, List.mem_cons_self, taken, Option.mem_toList.1 hf⟩
    · obtain ⟨m', hmem, hfires⟩ := ih hf
      exact ⟨m', List.mem_cons_of_mem _ hmem, hfires⟩

theorem exists_column_of_mem_filled {pl : Place} {taken : List String} {ms : Members}
    {f : String × Json} (hf : f ∈ p.filled pl taken ms) : ∃ cells, f.2 = columnJson cells := by
  obtain ⟨m, -, taken, hfires⟩ := exists_fires_of_mem_filled hf
  obtain ⟨-, cells, -, hcells⟩ := filling?_eq_some (fires?_eq_some hfires).2.2
  exact ⟨cells, hcells⟩

theorem get?_filled {pl : Place} {ms : Members} {k : String} (ws : Members)
    (hk : k ∈ keys (p.filled pl [] ms)) :
    ∃ cells, get? (insertAll ws (p.filled pl [] ms)) k = some (columnJson cells) := by
  obtain ⟨x, hmem, hx⟩ := Entries.get?_insertAll_of_mem ws hk
  obtain ⟨cells, hcells⟩ := exists_column_of_mem_filled hmem
  exact ⟨cells, by rw [hx]; exact congrArg some hcells⟩

theorem get?_not_filled {pl : Place} {ms : Members} {k : String}
    (hk : k ∉ keys (p.filled pl [] ms)) :
    get? (insertAll (p.members pl ms) (p.filled pl [] ms)) k = (get? ms k).map (p.outcome pl k) := by
  rw [Entries.get?_insertAll, Entries.lastWrite?_eq_none_iff.2 hk, Option.none_or, members_eq_map,
    Entries.get?_map (p.outcome pl)]

/-- **What a member holds after a pass** is a column with which a sibling fills it, or its outcome. -/
theorem column_or_outcome {pl : Place} {ms : Members} {k : String} {x : Json}
    (hx : get? (insertAll (p.members pl ms) (p.filled pl [] ms)) k = some x) :
    (k ∈ keys (p.filled pl [] ms) ∧ ∃ cells, x = columnJson cells) ∨
      (k ∉ keys (p.filled pl [] ms) ∧ ∃ v, get? ms k = some v ∧ x = p.outcome pl k v) := by
  by_cases hfilled : k ∈ keys (p.filled pl [] ms)
  · obtain ⟨cells, hcells⟩ := get?_filled (p.members pl ms) hfilled
    exact .inl ⟨hfilled, cells, Option.some.inj (hx.symm.trans hcells)⟩
  · rw [get?_not_filled hfilled] at hx
    obtain ⟨v, hv, rfl⟩ := Option.map_eq_some_iff.1 hx
    exact .inr ⟨hfilled, v, hv, rfl⟩

theorem at?_node_of_keeps {pl : Place} {j v : Json} {a : List Step} (hkeeps : p.Keeps pl j a)
    (hat : j.at? a = some v) : (p.node pl j).at? a = some (p.node (pl.along a) v) := by
  induction a generalizing pl j with
  | nil => rw [Option.some.inj hat]; rfl
  | cons step a ih =>
    cases step with
    | key k =>
      obtain ⟨ms, x, rfl, hx, hfilled, hsettled, hkeeps⟩ := hkeeps
      rw [Json.at?, hx] at hat
      rw [node, Json.at?, get?_not_filled hfilled, hx, Option.map_some, Option.bind_some, outcome,
        hsettled]
      exact ih hkeeps hat
    | index i =>
      obtain ⟨js, x, rfl, hx, hkeeps⟩ := hkeeps
      rw [Json.at?, hx] at hat
      rw [node, Json.at?, items_getElem?, hx, Nat.zero_add]
      exact ih hkeeps hat

theorem node_eq_obj {pl : Place} {j : Json} {xs : Members} (h : p.node pl j = .obj xs) :
    ∃ ms, j = .obj ms ∧ xs = insertAll (p.members pl ms) (p.filled pl [] ms) := by
  cases j with
  | obj ms =>
    rw [node] at h
    exact ⟨ms, rfl, (Json.obj.inj h).symm⟩
  | _ => cases h

theorem node_eq_arr {pl : Place} {j : Json} {xs : List Json} (h : p.node pl j = .arr xs) :
    ∃ js, j = .arr js ∧ xs = p.items pl 0 js := by
  cases j with
  | arr js =>
    rw [node] at h
    exact ⟨js, rfl, (Json.arr.inj h).symm⟩
  | _ => cases h

theorem of_at?_node_key {pl : Place} {j : Json} {k : String} {a : List Step} {xs : Members}
    (hat : (p.node pl j).at? (.key k :: a) = some (.obj xs)) :
    ∃ ms v, j = .obj ms ∧ get? ms k = some v ∧ k ∉ keys (p.filled pl [] ms) ∧
      p.settled? pl k v = none ∧ (p.node (.member pl.path k) v).at? a = some (.obj xs) := by
  cases hj : p.node pl j with
  | obj xs' =>
    obtain ⟨ms, rfl, rfl⟩ := node_eq_obj hj
    rw [hj, Json.at?] at hat
    obtain ⟨w, hw, hat⟩ := Option.bind_eq_some_iff.1 hat
    rcases column_or_outcome hw with ⟨-, cells, rfl⟩ | ⟨hfilled, v, hget, rfl⟩
    · exact absurd hat (at?_columnJson_ne_obj cells a xs)
    cases hsettled : p.settled? pl k v with
    | some s =>
      -- There is nothing in a text.
      rw [outcome_of_settled hsettled] at hat
      cases a with
      | nil => cases hat
      | cons step a => cases step <;> cases hat
    | none =>
      rw [outcome_of_not_settled hsettled] at hat
      exact ⟨ms, v, rfl, hget, hfilled, hsettled, hat⟩
  | _ => rw [hj] at hat; cases hat

theorem of_at?_node_index {pl : Place} {j x : Json} {i : Nat} {a : List Step}
    (hat : (p.node pl j).at? (.index i :: a) = some x) :
    ∃ js v, j = .arr js ∧ js[i]? = some v ∧ (p.node (pl.nth i) v).at? a = some x := by
  cases hj : p.node pl j with
  | arr xs =>
    obtain ⟨js, rfl, rfl⟩ := node_eq_arr hj
    rw [hj, Json.at?, items_getElem?, Nat.zero_add] at hat
    cases hget : js[i]? with
    | none => rw [hget] at hat; cases hat
    | some v =>
      rw [hget] at hat
      exact ⟨js, v, rfl, hget, hat⟩
  | _ => rw [hj] at hat; cases hat

/-- **Objects after a pass** are at addresses that the pass keeps. -/
theorem keeps_of_at?_node {pl : Place} {j : Json} {a : List Step} {xs : Members}
    (hat : (p.node pl j).at? a = some (.obj xs)) :
    p.Keeps pl j a ∧ ∃ ms, j.at? a = some (.obj ms) ∧
      xs = insertAll (p.members (pl.along a) ms) (p.filled (pl.along a) [] ms) := by
  induction a generalizing pl j with
  | nil =>
    obtain ⟨ms, rfl, hxs⟩ := node_eq_obj (Option.some.inj hat)
    exact ⟨trivial, ms, rfl, hxs⟩
  | cons step a ih =>
    cases step with
    | key k =>
      obtain ⟨ms, v, rfl, hget, hfilled, hsettled, hat⟩ := of_at?_node_key hat
      obtain ⟨hkeeps, ms', hms', hxs⟩ := ih hat
      refine ⟨⟨ms, v, rfl, hget, hfilled, hsettled, hkeeps⟩, ms', ?_, hxs⟩
      rw [Json.at?, hget]
      exact hms'
    | index i =>
      obtain ⟨js, v, rfl, hget, hat⟩ := of_at?_node_index hat
      obtain ⟨hkeeps, ms', hms', hxs⟩ := ih hat
      refine ⟨⟨js, v, rfl, hget, hkeeps⟩, ms', ?_, hxs⟩
      rw [Json.at?, hget]
      exact hms'

/-- An address is kept up to a member if it is kept up to the object, no sibling fills the member, and
the pass has no text for it. -/
theorem keeps_concat_key {pl : Place} {j : Json} {a : List Step} {ms : Members} {k : String}
    {v : Json} (hkeeps : p.Keeps pl j a) (hat : j.at? a = some (.obj ms)) (hget : get? ms k = some v)
    (hfilled : k ∉ keys (p.filled (pl.along a) [] ms))
    (hsettled : p.settled? (pl.along a) k v = none) : p.Keeps pl j (a ++ [.key k]) := by
  induction a generalizing pl j with
  | nil => exact ⟨ms, v, Option.some.inj hat, hget, hfilled, hsettled, trivial⟩
  | cons step a ih =>
    cases step with
    | key k' =>
      obtain ⟨ms', x, rfl, hx, hfilled', hsettled', hkeeps⟩ := hkeeps
      rw [Json.at?, hx] at hat
      exact ⟨ms', x, rfl, hx, hfilled', hsettled', ih hkeeps hat hfilled hsettled⟩
    | index i =>
      obtain ⟨js, x, rfl, hx, hkeeps⟩ := hkeeps
      rw [Json.at?, hx] at hat
      exact ⟨js, x, rfl, hx, ih hkeeps hat hfilled hsettled⟩

/-! ## Distinct keys -/

theorem distinct_columnJson (cells : List Cell) : (columnJson cells).Distinct := by
  refine distinct_arr.2 (distinctItems_iff.2 fun j hj => ?_)
  obtain ⟨cell, -, rfl⟩ := List.mem_map.1 hj
  exact distinct_of_not_isComposite (isComposite_cell cell)

mutual

theorem distinct_node (p : Pass) (pl : Place) (j : Json) (hj : j.Distinct) :
    (p.node pl j).Distinct := by
  cases j with
  | arr js =>
    rw [node, distinct_arr]
    exact distinct_items p pl 0 js (distinct_arr.1 hj)
  | obj ms =>
    obtain ⟨hnodup, hms⟩ := distinct_obj.1 hj
    rw [node, distinct_obj]
    refine ⟨Entries.nodup_keys_insertAll (by simpa using hnodup) _,
      distinctMembers_insertAll (distinct_members p pl ms hms) (distinctMembers_iff.2 ?_)⟩
    intro f hf
    obtain ⟨cells, hcells⟩ := exists_column_of_mem_filled hf
    rw [hcells]
    exact distinct_columnJson cells
  | _ => exact hj

theorem distinct_members (p : Pass) (pl : Place) (ms : List (String × Json))
    (hms : DistinctMembers ms) : DistinctMembers (p.members pl ms) := by
  match ms with
  | [] => trivial
  | (k, v) :: ms =>
    rw [members]
    refine ⟨?_, distinct_members p pl ms hms.2⟩
    cases p.settled? pl k v with
    | some s => trivial
    | none => exact distinct_node p (.member pl.path k) v hms.1

theorem distinct_items (p : Pass) (pl : Place) (i : Nat) (js : List Json) (hjs : DistinctItems js) :
    DistinctItems (p.items pl i js) := by
  match js with
  | [] => trivial
  | j :: js =>
    rw [items]
    exact ⟨distinct_node p (pl.nth i) j hjs.1, distinct_items p pl (i + 1) js hjs.2⟩

end

end Pass

end ChartTemplate
