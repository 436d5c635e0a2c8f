import ChartTemplate.Proofs.Walk.Frame
import ChartTemplate.Proofs.Walk.Reference
import ChartTemplate.Proofs.Walk.Trace

/-!
# Walks cover documents

`walk_coverage` : a walk that changes nothing visits each member that holds no array once, and no
member that holds one. The visits are those of the trace, which come in document order
(`pairwise_trace`): an entry before what is inside its value, and siblings as they stand in their
object or array (`Json.Before`). An item that is a scalar is visited twice in a row, as an item of its
array and by itself.
-/

namespace ChartTemplate

open Entries (keys get?)

/-! ## Document order -/

/-- The one address comes before the other one in the document. -/
inductive Json.Before (j : Json) : List Step → List Step → Prop
  /-- An entry comes before what is inside its value. -/
  | inside (a : List Step) {b : List Step} (hb : b ≠ []) : Before j a (a ++ b)
  /-- Members, and what is inside, come in the order of the object. -/
  | members {p : List Step} {ms : Members} {k l : String} (hat : j.at? p = some (.obj ms))
      (horder : [k, l].Sublist (keys ms)) (a b : List Step) :
      Before j (p ++ .key k :: a) (p ++ .key l :: b)
  /-- Items, and what is inside, come in the order of the array. -/
  | items (p : List Step) {i n : Nat} (horder : i < n) (a b : List Step) :
      Before j (p ++ .index i :: a) (p ++ .index n :: b)

section Order

variable {j : Json} {a b : List Step}

theorem Json.Before.within {step : Step} {x : Json} (hx : j.at? [step] = some x)
    (h : x.Before a b) : j.Before (step :: a) (step :: b) := by
  cases h with
  | inside a hb => exact .inside (step :: a) hb
  | @members p ms k l hat horder a b =>
    have hms := Json.at?_append j [step] p
    rw [hx] at hms
    exact .members (hms.trans hat) horder a b
  | items p horder a b => exact .items (step :: p) horder a b

theorem Json.Before.ne (hj : j.Distinct) (h : j.Before a b) : a ≠ b := by
  intro hab
  cases h with
  | inside a hb => exact hb (by simpa using hab)
  | members hat horder a b =>
    obtain ⟨hkey, -⟩ := List.cons.inj (List.append_cancel_left hab)
    obtain rfl := Step.key.inj hkey
    have hnodup := horder.nodup (distinct_obj.1 (hj.at? hat)).1
    exact (List.nodup_cons.1 hnodup).1 List.mem_cons_self
  | items p horder a b =>
    obtain ⟨hindex, -⟩ := List.cons.inj (List.append_cancel_left hab)
    exact Nat.ne_of_lt horder (Step.index.inj hindex)

/-- Two visits come in document order: the one entry comes before the other one, or it is an item that
is visited in its array and then, as a scalar, by itself. -/
def Json.InOrder (j : Json) (e e' : List Step × Visit) : Prop :=
  j.Before e.1 e'.1 ∨ e.1 = e'.1 ∧
    (∃ i js path, e.2 = .element i js path) ∧ ∃ key x path, e'.2 = .leaf key x path

theorem Json.InOrder.ne (hj : j.Distinct) {e e' : List Step × Visit} (h : j.InOrder e e') :
    e ≠ e' := by
  rintro rfl
  rcases h with h | ⟨-, ⟨_, _, _, helement⟩, _, _, _, hleaf⟩
  · exact h.ne hj rfl
  · rw [helement] at hleaf
    cases hleaf

theorem Json.InOrder.within {step : Step} {x : Json} (hx : j.at? [step] = some x)
    {e e' : List Step × Visit} (h : x.InOrder e e') :
    j.InOrder (step :: e.1, e.2) (step :: e'.1, e'.2) :=
  h.imp (·.within hx) fun ⟨haddress, hvisits⟩ => ⟨congrArg (step :: ·) haddress, hvisits⟩

theorem isLeaf_of_mem_trace {pl : Place} {key : Key} {w : Visit} (hj : j.Distinct)
    (h : ([], w) ∈ trace pl key j) : pl.isHere = true ∧ ∃ key x path, w = .leaf key x path := by
  have hat := isAt_of_mem_trace pl key j hj h
  generalize ha : ([] : List Step) = a at hat
  cases hat with
  | member => simp at ha
  | element => simp at ha
  | leaf hat hscalar hhere =>
    subst ha
    exact ⟨hhere, _, _, _, rfl⟩

theorem pairwise_visitsOf {step : Step} {own : Option Visit} {x : Json}
    {xs : List (List Step × Visit)} (hx : j.at? [step] = some x) (hxs : xs.Pairwise x.InOrder)
    (hown : ∀ w w', own = some w → ([], w') ∈ xs →
      (∃ i js path, w = .element i js path) ∧ ∃ key x path, w' = .leaf key x path) :
    (visitsOf step own xs).Pairwise j.InOrder := by
  have hinside : (inside step xs).Pairwise j.InOrder := List.pairwise_map.2 (hxs.imp (·.within hx))
  cases own with
  | none => exact hinside
  | some w =>
    refine List.pairwise_cons.2 ⟨fun e he => ?_, hinside⟩
    obtain ⟨⟨a, w'⟩, hmem, rfl⟩ := List.mem_map.1 he
    by_cases ha : a = []
    · subst ha
      exact .inr ⟨rfl, hown w w' rfl hmem⟩
    · exact .inl (.inside [step] ha)

theorem address_of_mem_visitsOf {step : Step} {own : Option Visit} {xs : List (List Step × Visit)}
    {w : Visit} (h : (a, w) ∈ visitsOf step own xs) : ∃ b, a = step :: b := by
  rcases mem_visitsOf.1 h with ⟨rfl, -⟩ | ⟨b, rfl, -⟩
  · exact ⟨[], rfl⟩
  · exact ⟨b, rfl⟩

theorem address_of_mem_memberTrace {pl : Place} {owner ms : Members} {w : Visit}
    (h : (a, w) ∈ memberTrace pl owner ms) : ∃ k b, k ∈ keys ms ∧ a = .key k :: b := by
  induction ms with
  | nil => exact absurd h List.not_mem_nil
  | cons m ms ih =>
    rcases List.mem_append.1 h with h | h
    · obtain ⟨b, rfl⟩ := address_of_mem_visitsOf h
      exact ⟨m.1, b, List.mem_cons_self, rfl⟩
    · obtain ⟨k, b, hk, rfl⟩ := ih h
      exact ⟨k, b, List.mem_cons_of_mem _ hk, rfl⟩

theorem address_of_mem_itemTrace {pl : Place} {owner js : List Json} {i : Nat} {w : Visit}
    (h : (a, w) ∈ itemTrace pl owner i js) : ∃ n b, i ≤ n ∧ a = .index n :: b := by
  induction js generalizing i with
  | nil => exact absurd h List.not_mem_nil
  | cons x js ih =>
    rcases List.mem_append.1 h with h | h
    · obtain ⟨b, rfl⟩ := address_of_mem_visitsOf h
      exact ⟨i, b, Nat.le_refl i, rfl⟩
    · obtain ⟨n, b, hn, rfl⟩ := ih h
      exact ⟨n, b, Nat.le_of_succ_le hn, rfl⟩

mutual

theorem pairwise_trace (pl : Place) (key : Key) (j : Json) (hj : j.Distinct) :
    (trace pl key j).Pairwise j.InOrder := by
  match j with
  | .arr js =>
    rw [trace]
    exact pairwise_itemTrace pl js 0 js (fun n => by rw [Nat.zero_add]) (distinct_arr.1 hj)
  | .obj ms =>
    rw [trace]
    obtain ⟨hnodup, hms⟩ := distinct_obj.1 hj
    exact pairwise_memberTrace pl ms ms (.refl _) (fun m hm => Entries.get?_of_mem hnodup hm) hms
  | .null | .bool _ | .num _ | .str _ =>
    rw [trace_scalar pl key rfl]
    split
    · exact List.pairwise_singleton _ _
    · exact .nil

theorem pairwise_memberTrace (pl : Place) (owner : Members) (ms : List (String × Json))
    (hsub : (keys ms).Sublist (keys owner)) (howner : ∀ m ∈ ms, get? owner m.1 = some m.2)
    (hms : DistinctMembers ms) : (memberTrace pl owner ms).Pairwise (Json.obj owner).InOrder := by
  match ms with
  | [] => exact .nil
  | (k, x) :: ms =>
    obtain ⟨hget, hrest⟩ := List.forall_mem_cons.1 howner
    have hat : (Json.obj owner).at? [.key k] = some x := by rw [Json.at?, hget]; rfl
    have hvalue := pairwise_trace (.member pl.path k) (.name k) x hms.1
    have hlater := pairwise_memberTrace pl owner ms (.trans (List.sublist_cons_self k _) hsub) hrest
      hms.2
    rw [memberTrace]
    refine List.pairwise_append.2 ⟨pairwise_visitsOf hat hvalue fun _ _ _ hleaf => ?_, hlater, ?_⟩
    · exact absurd (isLeaf_of_mem_trace hms.1 hleaf).1 Bool.false_ne_true
    · rintro ⟨a, w⟩ he ⟨b, w'⟩ he'
      obtain ⟨a, rfl⟩ := address_of_mem_visitsOf he
      obtain ⟨l, b, hl, rfl⟩ := address_of_mem_memberTrace he'
      have horder : [k, l].Sublist (keys owner) :=
        .trans (.cons_cons k (List.singleton_sublist.2 hl)) hsub
      exact .inl (.members (p := []) rfl horder a b)

theorem pairwise_itemTrace (pl : Place) (owner : List Json) (i : Nat) (js : List Json)
    (howner : ∀ n, owner[i + n]? = js[n]?) (hjs : DistinctItems js) :
    (itemTrace pl owner i js).Pairwise (Json.arr owner).InOrder := by
  match js with
  | [] => exact .nil
  | x :: js =>
    have hget : owner[i]? = some x := howner 0
    have hat : (Json.arr owner).at? [.index i] = some x := by rw [Json.at?, hget]; rfl
    have hvalue := pairwise_trace (pl.nth i) (.index i) x hjs.1
    have hlater := pairwise_itemTrace pl owner (i + 1) js (fun n => by
      rw [Nat.add_right_comm, Nat.add_assoc]
      exact howner (n + 1)) hjs.2
    rw [itemTrace]
    refine List.pairwise_append.2 ⟨pairwise_visitsOf hat hvalue fun w w' hown hleaf => ?_, hlater, ?_⟩
    · split at hown
      · cases hown
      · exact ⟨⟨i, owner, _, (Option.some.inj hown).symm⟩, (isLeaf_of_mem_trace hjs.1 hleaf).2⟩
    · rintro ⟨a, w⟩ he ⟨b, w'⟩ he'
      obtain ⟨a, rfl⟩ := address_of_mem_visitsOf he
      obtain ⟨n, b, hn, rfl⟩ := address_of_mem_itemTrace he'
      exact .inl (.items [] hn a b)

end

end Order

/-! ## Coverage -/

section Coverage

variable {pl : Place} {key : Key} {j : Json} {a : List Step} {ms : Members} {k : String} {x : Json}

theorem isAt_member_iff (hat : j.at? a = some (.obj ms)) (hget : get? ms k = some x) {w : Visit} :
    w.IsAt pl key j (a ++ [.key k]) ↔ x.isArray = false ∧ w = .member k ms (pl.along a).path := by
  refine ⟨fun h => ?_, fun ⟨harray, hw⟩ => hw ▸ .member hat hget harray⟩
  generalize haddress : a ++ [.key k] = b at h
  cases h with
  | member hat' hget' harray =>
    obtain ⟨rfl, hkey⟩ := List.append_inj' haddress rfl
    obtain rfl := Step.key.inj (List.singleton_inj.1 hkey)
    obtain rfl := Json.obj.inj (Option.some.inj (hat.symm.trans hat'))
    obtain rfl := Option.some.inj (hget.symm.trans hget')
    exact ⟨harray, rfl⟩
  | element => cases List.singleton_inj.1 (List.append_inj' haddress rfl).2
  | leaf hat' hscalar hhere =>
    rw [← haddress, Place.along_append] at hhere
    exact absurd hhere Bool.false_ne_true

theorem filter_trace (hj : j.Distinct) (hat : j.at? a = some (.obj ms)) (hget : get? ms k = some x) :
    (trace pl key j).filter (fun e => e.1 = a ++ [.key k]) =
      if x.isArray then [] else [(a ++ [.key k], .member k ms (pl.along a).path)] := by
  have hmem (e : List Step × Visit) :
      e ∈ (trace pl key j).filter (fun e => e.1 = a ++ [.key k]) ↔
        x.isArray = false ∧ e = (a ++ [.key k], .member k ms (pl.along a).path) := by
    obtain ⟨b, w⟩ := e
    rw [List.mem_filter, decide_eq_true_iff, mem_trace_iff hj, Prod.mk.injEq]
    constructor
    · rintro ⟨hvisit, rfl⟩
      obtain ⟨harray, hw⟩ := (isAt_member_iff hat hget).1 hvisit
      exact ⟨harray, rfl, hw⟩
    · rintro ⟨harray, rfl, hw⟩
      exact ⟨(isAt_member_iff hat hget).2 ⟨harray, hw⟩, rfl⟩
  split
  · rename_i harray
    refine List.eq_nil_iff_forall_not_mem.2 fun e he => ?_
    rw [((hmem e).1 he).1] at harray
    exact Bool.false_ne_true harray
  · rename_i harray
    have hnodup : (trace pl key j).Nodup := (pairwise_trace pl key j hj).imp (·.ne hj)
    refine List.perm_singleton.1
      ((List.perm_ext_iff_of_nodup (hnodup.filter _) (List.nodup_singleton _)).2 fun e => ?_)
    rw [hmem, List.mem_singleton]
    exact and_iff_right (by simpa using harray)

end Coverage

/-- The visits that walks of a document from a path make if they change nothing. -/
structure Json.Covered (j : Json) (path : String) (visits : List (List Step × Visit)) : Prop where
  /-- The walk of any visitor that changes nothing makes these visits, and no others. -/
  walk : ∀ {σ : Type} (v : Visitor σ), v.ReadOnly → ∀ room s,
    walk? v room s j path = some ((visits.map Prod.snd).foldl v.see s, j)
  /-- Each member is visited once, with the object that owns it, or not at all if it holds an array. -/
  member : ∀ a ms k x, j.at? a = some (.obj ms) → Entries.get? ms k = some x →
    visits.filter (fun e => e.1 = a ++ [.key k]) =
      if x.isArray then [] else [(a ++ [.key k], .member k ms ((Place.here path).along a).path)]
  /-- What is handed over in a visit is what is at its address. -/
  isAt : ∀ a w, (a, w) ∈ visits ↔ w.IsAt (.here path) .root j a
  /-- An entry is visited before what is inside its value, and siblings in the order of the
  document. -/
  inOrder : visits.Pairwise j.InOrder

/-- **Coverage**: a walk that changes nothing visits each member that holds no array once, wherever its
object is, and comes to the entries in document order. -/
theorem walk_coverage {j : Json} (hj : j.Distinct) (path : String) :
    ∃ visits, j.Covered path visits :=
  ⟨trace (.here path) .root j, {
    walk := fun _ hv room s => walkNode_trace hv _ s .root path j hj (by omega)
    member := fun _ _ _ _ hat hget => filter_trace hj hat hget
    isAt := fun _ _ => mem_trace_iff hj
    inOrder := pairwise_trace _ _ j hj }⟩

theorem distinct_nestedChart : nestedChart.Distinct := by
  simp [nestedChart, DistinctMembers, DistinctItems, Json.Distinct]

/-- Objects and arrays in each other. -/
theorem walk_coverage_nested :
    nestedChart.Distinct ∧ ∃ visits, nestedChart.Covered "options" visits :=
  ⟨distinct_nestedChart, walk_coverage distinct_nestedChart "options"⟩

end ChartTemplate
