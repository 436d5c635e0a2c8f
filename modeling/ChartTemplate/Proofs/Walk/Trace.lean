import ChartTemplate.Proofs.Walk.Address
import ChartTemplate.Proofs.Walk.Traced

/-!
# The trace of a walk

`trace` lists the visits of a walk that changes nothing, each with the address of the entry that is
visited.

* `walkNode_trace` : the walk of any visitor that changes nothing makes these visits, in this order.
* `mem_trace_iff` : they are the visits that `Visit.IsAt` names: members that hold no array, wherever
  their object is, items, and scalars that are reached otherwise than as members.

The walk of an array depends on how it was reached, and so do the visits: an array in an array without
a name is walked, but not visited.
-/

namespace ChartTemplate

open Entries (keys get?)

/-! ## Visits and where they are -/

inductive Visit where
  | member (key : String) (owner : Members) (path : String)
  | element (index : Nat) (owner : List Json) (path : String)
  | leaf (key : Key) (value : Json) (path : String)

def Visitor.see {σ : Type} (v : Visitor σ) (s : σ) : Visit → σ
  | .member key owner path => (v.member s key owner path).1
  | .element index owner path => (v.element s index owner path).1
  | .leaf key value path => v.leaf s key value path

/-- Whether the document at the place is neither a member nor an item of an array without a name. -/
def Place.isHere : Place → Bool
  | .here _ => true
  | _ => false

/-- The path of the container at which the way to the place left off. -/
def Place.base : Place → String
  | .here path => path
  | .member path _ => path
  | .item path _ => path

/-- The name under which the document at an address was reached. -/
def Key.along (key : Key) : List Step → Key
  | [] => key
  | .key k :: a => (Key.name k).along a
  | .index i :: a => (Key.index i).along a

/-- The visits of a walk of a document at a place: which entry is visited at an address, and what is
handed over there. -/
inductive Visit.IsAt (pl : Place) (key : Key) (j : Json) : List Step → Visit → Prop
  /-- A member that holds no array, with the object that owns it. -/
  | member {a : List Step} {ms : Members} {k : String} {x : Json} (hat : j.at? a = some (.obj ms))
      (hget : get? ms k = some x) (harray : x.isArray = false) :
      IsAt pl key j (a ++ [.key k]) (.member k ms (pl.along a).path)
  /-- An item, unless it is an array in an array without a name. -/
  | element {a : List Step} {js : List Json} {i : Nat} {x : Json} (hat : j.at? a = some (.arr js))
      (hget : js[i]? = some x) (harray : (pl.along a).isHere = true → x.isArray = false) :
      IsAt pl key j (a ++ [.index i]) (.element i js (pl.along a).base)
  /-- A scalar, unless it is a member or an item of an array without a name. -/
  | leaf {a : List Step} {x : Json} (hat : j.at? a = some x) (hscalar : x.isComposite = false)
      (hhere : (pl.along a).isHere = true) :
      IsAt pl key j a (.leaf (key.along a) x (pl.along a).path)

/-! ## The trace -/

/-- The visits inside the entry to which a step leads. -/
def inside (step : Step) (visits : List (List Step × Visit)) : List (List Step × Visit) :=
  visits.map fun e => (step :: e.1, e.2)

/-- The visit to an entry, if there is one, and then those inside. -/
def visitsOf (step : Step) (own : Option Visit) (value : List (List Step × Visit)) :
    List (List Step × Visit) :=
  (own.map fun w => ([step], w)).toList ++ inside step value

mutual

/-- The visits of a walk of a document that was reached under a key. -/
def trace (pl : Place) (key : Key) : Json → List (List Step × Visit)
  | .arr js => itemTrace pl js 0 js
  | .obj ms => memberTrace pl ms ms
  | j => if pl.isHere then [([], .leaf key j pl.path)] else []

def memberTrace (pl : Place) (owner : Members) : List (String × Json) → List (List Step × Visit)
  | [] => []
  | (k, x) :: ms =>
    visitsOf (.key k) (if x.isArray then none else some (.member k owner pl.path))
      (trace (.member pl.path k) (.name k) x) ++ memberTrace pl owner ms

/-- The visits to items, from the `i`th on, of an array, and in them. -/
def itemTrace (pl : Place) (owner : List Json) (i : Nat) : List Json → List (List Step × Visit)
  | [] => []
  | j :: js =>
    visitsOf (.index i) (if pl.isHere && j.isArray then none else some (.element i owner pl.base))
      (trace (pl.nth i) (.index i) j) ++ itemTrace pl owner (i + 1) js

end

theorem trace_scalar (pl : Place) (key : Key) {j : Json} (hj : j.isComposite = false) :
    trace pl key j = if pl.isHere then [([], .leaf key j pl.path)] else [] := by
  cases j <;> first | rfl | cases hj

/-! ## Walks make the visits of the trace -/

section Walk

variable {σ : Type} {v : Visitor σ}

def Visitor.seeAll (v : Visitor σ) (s : σ) (visits : List (List Step × Visit)) : σ :=
  (visits.map Prod.snd).foldl v.see s

@[simp] theorem Visitor.seeAll_append (s : σ) (xs ys : List (List Step × Visit)) :
    v.seeAll s (xs ++ ys) = v.seeAll (v.seeAll s xs) ys := by
  rw [seeAll, List.map_append, List.foldl_append]
  rfl

@[simp] theorem Visitor.seeAll_visitsOf (s : σ) (step : Step) (own : Option Visit)
    (xs : List (List Step × Visit)) :
    v.seeAll s (visitsOf step own xs) = v.seeAll (own.elim s (v.see s)) xs := by
  have hinside (s : σ) : v.seeAll s (inside step xs) = v.seeAll s xs := by
    rw [seeAll, inside, List.map_map]
    rfl
  rw [visitsOf, seeAll_append, hinside]
  cases own <;> rfl

theorem Visitor.ReadOnly.member_eq (hv : v.ReadOnly) (s : σ) (k : String) (ms : Members)
    (path : String) : v.member s k ms path = (v.see s (.member k ms path), ms) :=
  Prod.ext rfl (hv.member s k ms path)

theorem Visitor.ReadOnly.element_eq (hv : v.ReadOnly) (s : σ) (i : Nat) (js : List Json)
    (path : String) : v.element s i js path = (v.see s (.element i js path), js) :=
  Prod.ext rfl (hv.element s i js path)

mutual

theorem walkNode_obj_trace (hv : v.ReadOnly) (fuel : Nat) (s : σ) (key : Key) (pl : Place)
    (ms : Members) (hms : (Json.obj ms).Distinct) (hfuel : 2 * sizeOfMembers ms + 2 ≤ fuel) :
    walkNode v fuel s key (.obj ms) pl.path =
      some (v.seeAll s (trace pl key (.obj ms)), .obj ms) := by
  cases fuel with
  | zero => omega
  | succ fuel =>
    obtain ⟨hnodup, hdist⟩ := distinct_obj.1 hms
    have h := walkMembers_trace hv fuel s pl ms ms hdist
      (fun m hm => Entries.get?_of_mem hnodup hm) (by omega)
    rw [walkNode, trace]
    simp only [h, Option.bind_eq_bind, Option.bind_some]
    rfl

theorem walkNode_trace (hv : v.ReadOnly) (fuel : Nat) (s : σ) (key : Key) (path : String) (j : Json)
    (hj : j.Distinct) (hfuel : 2 * j.size ≤ fuel) :
    walkNode v fuel s key j path = some (v.seeAll s (trace (.here path) key j), j) := by
  match j with
  | .obj ms =>
    rw [size_obj] at hfuel
    exact walkNode_obj_trace hv fuel s key (.here path) ms hj (by omega)
  | .arr js =>
    rw [size_arr] at hfuel
    obtain ⟨fuel, rfl⟩ : ∃ n, fuel = n + 1 := ⟨fuel - 1, by omega⟩
    have h := walkIndices_trace hv fuel s path [] js (distinct_arr.1 hj) (by omega)
    rw [List.nil_append, List.length_nil] at h
    rw [walkNode, trace]
    simp only [h, Option.bind_eq_bind, Option.bind_some]
    rfl
  | .null | .bool _ | .num _ | .str _ =>
    obtain ⟨fuel, rfl⟩ : ∃ n, fuel = n + 1 := ⟨fuel - 1, by simp [Json.size] at hfuel; omega⟩
    rfl

theorem walkMembers_trace (hv : v.ReadOnly) (fuel : Nat) (s : σ) (pl : Place) (owner ms : Members)
    (hms : DistinctMembers ms) (howner : ∀ m ∈ ms, get? owner m.1 = some m.2)
    (hfuel : 2 * sizeOfMembers ms + 1 ≤ fuel) :
    walkMembers v fuel s (keys ms) owner pl.path =
      some (v.seeAll s (memberTrace pl owner ms), owner) := by
  cases fuel with
  | zero => omega
  | succ fuel =>
    match ms with
    | [] => rfl
    | (k, x) :: ms =>
      rw [sizeOfMembers] at hfuel
      have hsize := x.size_pos
      obtain ⟨hget, hrest⟩ := List.forall_mem_cons.1 howner
      dsimp only at hget
      have hself := Entries.insert_eq_self hget
      have hnext (s : σ) := walkMembers_trace hv fuel s pl owner ms hms.2 hrest (by omega)
      rw [memberTrace, Entries.keys_cons, walkMembers, hget]
      simp only [Visitor.seeAll_append, Visitor.seeAll_visitsOf]
      cases x with
      | arr js =>
        rw [size_arr] at hfuel
        have hwalk := walkArray_trace hv fuel s k pl.path (.member pl.path k) rfl rfl (fun _ => rfl)
          [] js (distinct_arr.1 hms.1) (by omega)
        rw [List.nil_append, List.length_nil] at hwalk
        simp only [hwalk, Option.bind_eq_bind, Option.bind_some, hself, hnext]
        rfl
      | obj inner =>
        rw [size_obj] at hfuel
        have hwalk (s : σ) := walkNode_obj_trace hv fuel s (.name k) (.member pl.path k) inner hms.1
          (by omega)
        rw [Place.path] at hwalk
        simp only [hv.member_eq, hget, Json.isComposite, if_true, hwalk, Option.bind_eq_bind,
          Option.bind_some, hself, hnext]
        rfl
      | _ =>
        simp only [hv.member_eq, hget, Json.isComposite, Bool.false_eq_true, if_false, hnext]
        rfl

theorem walkArray_trace (hv : v.ReadOnly) (fuel : Nat) (s : σ) (name path : String) (pl : Place)
    (hhere : pl.isHere = false) (hbase : pl.base = path)
    (hpl : ∀ i, pl.nth i = .here (itemPath path i name)) (done js : List Json)
    (hjs : DistinctItems js) (hfuel : 2 * sizeOfItems js + 1 ≤ fuel) :
    walkArray v fuel s name done.length (done ++ js) path =
      some (v.seeAll s (itemTrace pl (done ++ js) done.length js), done ++ js) := by
  cases fuel with
  | zero => omega
  | succ fuel =>
    match js with
    | [] =>
      rw [walkArray, if_neg (by simp), itemTrace]
      rfl
    | j :: js =>
      rw [sizeOfItems] at hfuel
      have hsize := j.size_pos
      have hget : (done ++ j :: js)[done.length]? = some j := by simp
      have hset : (done ++ j :: js).set done.length j = done ++ j :: js := by simp
      have hnode (s : σ) := walkNode_trace hv fuel s (.index done.length)
        (itemPath path done.length name) j hjs.1 (by omega)
      have hrest (s : σ) := walkArray_trace hv fuel s name path pl hhere hbase hpl (done ++ [j]) js
        hjs.2 (by omega)
      simp only [List.append_assoc, List.singleton_append, List.length_append, List.length_singleton]
        at hrest
      rw [walkArray, if_pos (by simp), hv.element_eq, itemTrace, hhere, hbase, hpl]
      simp only [hget, hnode, Option.bind_eq_bind, Option.bind_some, hset, hrest,
        Visitor.seeAll_append, Visitor.seeAll_visitsOf]
      rfl

theorem walkIndices_trace (hv : v.ReadOnly) (fuel : Nat) (s : σ) (path : String) (done js : List Json)
    (hjs : DistinctItems js) (hfuel : 2 * sizeOfItems js + 1 ≤ fuel) :
    walkIndices v fuel s done.length (done ++ js) path =
      some (v.seeAll s (itemTrace (.here path) (done ++ js) done.length js), done ++ js) := by
  cases fuel with
  | zero => omega
  | succ fuel =>
    match js with
    | [] =>
      rw [walkIndices, List.append_nil, List.getElem?_eq_none (Nat.le_refl _), itemTrace]
      rfl
    | j :: js =>
      rw [sizeOfItems] at hfuel
      have hsize := j.size_pos
      have hget : (done ++ j :: js)[done.length]? = some j := by simp
      have hset : (done ++ j :: js).set done.length j = done ++ j :: js := by simp
      have hrest (s : σ) := walkIndices_trace hv fuel s path (done ++ [j]) js hjs.2 (by omega)
      simp only [List.append_assoc, List.singleton_append, List.length_append, List.length_singleton]
        at hrest
      rw [walkIndices, hget, itemTrace, Place.nth]
      simp only [Visitor.seeAll_append, Visitor.seeAll_visitsOf]
      cases j with
      | arr inner =>
        rw [size_arr] at hfuel
        have hwalk := walkArray_trace hv fuel s (indexName done.length) path
          (.item path done.length) rfl rfl (fun _ => rfl) [] inner (distinct_arr.1 hjs.1) (by omega)
        rw [List.nil_append, List.length_nil] at hwalk
        simp only [hwalk, Option.bind_eq_bind, Option.bind_some, hset, hrest]
        rfl
      | obj ms =>
        rw [size_obj] at hfuel
        have hwalk (s : σ) := walkNode_obj_trace hv fuel s (.index done.length)
          (.item path done.length) ms hjs.1 (by omega)
        rw [Place.path] at hwalk
        simp only [hv.element_eq, hget, Json.isComposite, if_true, hwalk, Option.bind_eq_bind,
          Option.bind_some, hset, hrest]
        rfl
      | _ =>
        simp only [hv.element_eq, hget, Json.isComposite, Bool.false_eq_true, if_false, hrest]
        rfl

end

end Walk

/-! ## The visits of the trace -/

section Visits

variable {pl : Place} {key : Key} {j : Json} {a : List Step} {w : Visit}

theorem mem_visitsOf {step : Step} {own : Option Visit} {xs : List (List Step × Visit)}
    {b : List Step} :
    (b, w) ∈ visitsOf step own xs ↔
      (b = [step] ∧ own = some w) ∨ ∃ a, b = step :: a ∧ (a, w) ∈ xs := by
  simp [visitsOf, inside, and_comm, eq_comm]

theorem Key.along_append (key : Key) (a b : List Step) :
    key.along (a ++ b) = (key.along a).along b := by
  induction a generalizing key with
  | nil => rfl
  | cons step a ih => cases step <;> exact ih _

theorem Visit.IsAt.within {step : Step} {x : Json} (hx : j.at? [step] = some x)
    (h : w.IsAt (pl.along [step]) (key.along [step]) x a) : w.IsAt pl key j (step :: a) := by
  have hat {b : List Step} {y : Json} (hy : x.at? b = some y) : j.at? (step :: b) = some y := by
    have := Json.at?_append j [step] b
    rw [hx] at this
    exact this.trans hy
  have hpl (b : List Step) : (pl.along [step]).along b = pl.along (step :: b) :=
    (Place.along_append pl [step] b).symm
  have hkey (b : List Step) : (key.along [step]).along b = key.along (step :: b) :=
    (Key.along_append key [step] b).symm
  cases h with
  | member hms hget harray =>
    rw [hpl]
    exact .member (hat hms) hget harray
  | element hjs hget harray =>
    rw [hpl] at harray ⊢
    exact .element (hat hjs) hget harray
  | leaf hy hscalar hhere =>
    rw [hpl] at hhere ⊢
    rw [hkey]
    exact .leaf (hat hy) hscalar hhere

mutual

theorem isAt_of_mem_trace (pl : Place) (key : Key) (j : Json) (hj : j.Distinct) {a : List Step}
    {w : Visit} (h : (a, w) ∈ trace pl key j) : w.IsAt pl key j a := by
  match j with
  | .arr js =>
    rw [trace] at h
    exact isAt_of_mem_itemTrace pl key js 0 js (fun n => by rw [Nat.zero_add])
      (distinct_arr.1 hj) h
  | .obj ms =>
    rw [trace] at h
    obtain ⟨hnodup, hms⟩ := distinct_obj.1 hj
    exact isAt_of_mem_memberTrace pl key ms ms (fun m hm => Entries.get?_of_mem hnodup hm) hms h
  | .null | .bool _ | .num _ | .str _ =>
    rw [trace_scalar pl key rfl] at h
    split at h
    · obtain ⟨rfl, rfl⟩ := Prod.mk.inj (List.mem_singleton.1 h)
      exact .leaf rfl rfl ‹_›
    · exact absurd h List.not_mem_nil

theorem isAt_of_mem_memberTrace (pl : Place) (key : Key) (owner : Members)
    (ms : List (String × Json)) (howner : ∀ m ∈ ms, get? owner m.1 = some m.2)
    (hms : DistinctMembers ms) {a : List Step} {w : Visit} (h : (a, w) ∈ memberTrace pl owner ms) :
    w.IsAt pl key (.obj owner) a := by
  match ms with
  | [] => exact absurd h List.not_mem_nil
  | (k, x) :: ms =>
    obtain ⟨hget, hrest⟩ := List.forall_mem_cons.1 howner
    rw [memberTrace] at h
    rcases List.mem_append.1 h with h | h
    · rcases mem_visitsOf.1 h with ⟨rfl, hown⟩ | ⟨b, rfl, hb⟩
      · split at hown
        · cases hown
        · rename_i harray
          obtain rfl := Option.some.inj hown
          exact .member (a := []) rfl hget (by simpa using harray)
      · have hat : (Json.obj owner).at? [.key k] = some x := by rw [Json.at?, hget]; rfl
        exact (isAt_of_mem_trace _ _ x hms.1 hb).within hat
    · exact isAt_of_mem_memberTrace pl key owner ms hrest hms.2 h

theorem isAt_of_mem_itemTrace (pl : Place) (key : Key) (owner : List Json) (i : Nat) (js : List Json)
    (howner : ∀ n, owner[i + n]? = js[n]?) (hjs : DistinctItems js) {a : List Step} {w : Visit}
    (h : (a, w) ∈ itemTrace pl owner i js) : w.IsAt pl key (.arr owner) a := by
  match js with
  | [] => exact absurd h List.not_mem_nil
  | x :: js =>
    have hget : owner[i]? = some x := howner 0
    rw [itemTrace] at h
    rcases List.mem_append.1 h with h | h
    · rcases mem_visitsOf.1 h with ⟨rfl, hown⟩ | ⟨b, rfl, hb⟩
      · split at hown
        · cases hown
        · rename_i harray
          obtain rfl := Option.some.inj hown
          refine .element (a := []) rfl hget fun hhere => ?_
          rw [Place.along] at hhere
          simpa [hhere] using harray
      · have hat : (Json.arr owner).at? [.index i] = some x := by rw [Json.at?, hget]; rfl
        exact (isAt_of_mem_trace _ _ x hjs.1 hb).within hat
    · refine isAt_of_mem_itemTrace pl key owner (i + 1) js (fun n => ?_) hjs.2 h
      rw [Nat.add_right_comm, Nat.add_assoc]
      exact howner (n + 1)

end

/-! The other way round, a visit is found by its address. -/

theorem mem_memberTrace_of_mem {owner ms : Members} {k : String} {x : Json} {e : List Step × Visit}
    (hm : (k, x) ∈ ms)
    (he : e ∈ visitsOf (.key k) (if x.isArray then none else some (.member k owner pl.path))
      (trace (.member pl.path k) (.name k) x)) : e ∈ memberTrace pl owner ms := by
  induction ms with
  | nil => exact absurd hm List.not_mem_nil
  | cons m ms ih =>
    rw [memberTrace]
    rcases List.mem_cons.1 hm with rfl | hm
    · exact List.mem_append_left _ he
    · exact List.mem_append_right _ (ih hm)

theorem mem_itemTrace_of_getElem? {owner js : List Json} {i n : Nat} {x : Json}
    {e : List Step × Visit} (hn : js[n]? = some x)
    (he : e ∈ visitsOf (.index (i + n))
      (if pl.isHere && x.isArray then none else some (.element (i + n) owner pl.base))
      (trace (pl.nth (i + n)) (.index (i + n)) x)) :
    e ∈ itemTrace pl owner i js := by
  induction js generalizing i n with
  | nil => simp at hn
  | cons j js ih =>
    rw [itemTrace]
    cases n with
    | zero =>
      obtain rfl : j = x := by simpa using hn
      exact List.mem_append_left _ he
    | succ n =>
      refine List.mem_append_right _ (ih (n := n) hn ?_)
      rwa [Nat.add_right_comm, Nat.add_assoc]

theorem mem_trace_of_at? {x : Json} (hat : j.at? a = some x) {b : List Step}
    (h : (b, w) ∈ trace (pl.along a) (key.along a) x) : (a ++ b, w) ∈ trace pl key j := by
  induction a generalizing pl key j with
  | nil => exact Option.some.inj hat ▸ h
  | cons step a ih =>
    cases step with
    | key k =>
      cases j with
      | obj ms =>
        obtain ⟨y, hget, hy⟩ := Option.bind_eq_some_iff.1 hat
        rw [trace]
        exact mem_memberTrace_of_mem (Entries.mem_of_get? hget)
          (mem_visitsOf.2 (.inr ⟨a ++ b, rfl, ih hy h⟩))
      | _ => cases hat
    | index i =>
      cases j with
      | arr js =>
        obtain ⟨y, hget, hy⟩ := Option.bind_eq_some_iff.1 hat
        rw [trace]
        refine mem_itemTrace_of_getElem? hget (mem_visitsOf.2 (.inr ⟨a ++ b, ?_, ?_⟩))
        · rw [Nat.zero_add]
          rfl
        · rw [Nat.zero_add]
          exact ih hy h
      | _ => cases hat

/-- **The visits of a walk**: the trace has a visit at an address exactly if it is one of the visits
there. -/
theorem mem_trace_iff (hj : j.Distinct) : (a, w) ∈ trace pl key j ↔ w.IsAt pl key j a := by
  refine ⟨isAt_of_mem_trace pl key j hj, fun h => ?_⟩
  cases h with
  | member hat hget harray =>
    refine mem_trace_of_at? hat ?_
    rw [trace]
    exact mem_memberTrace_of_mem (Entries.mem_of_get? hget)
      (mem_visitsOf.2 (.inl ⟨rfl, by simp [harray]⟩))
  | @element a js i x hat hget harray =>
    refine mem_trace_of_at? hat ?_
    rw [trace]
    refine mem_itemTrace_of_getElem? hget (mem_visitsOf.2 (.inl ?_))
    cases hhere : (pl.along a).isHere with
    | true => simp [harray hhere]
    | false => simp
  | @leaf a x hat hscalar hhere =>
    have h : ([], Visit.leaf (key.along a) x (pl.along a).path) ∈
        trace (pl.along a) (key.along a) x := by
      rw [trace_scalar _ _ hscalar, if_pos hhere]
      exact List.mem_singleton_self _
    simpa using mem_trace_of_at? hat h

end Visits

end ChartTemplate
