import ChartTemplate.Proofs.Walk.Pass

/-!
# Walks compute passes

`walk?_eq` : a visitor that follows a pass comes to the end of its walk, makes exactly the visits of
`Pass.visits` in their order, and leaves the document `Pass.node`.

The induction is on the bound of the walk, one theorem for each of its functions. While the members of
an object are walked, the object is `insertAll (done ++ p.entered pl rest) filled`: the outcomes of the
members that were walked, the members that were not, and over both of them the entries that members
filled so far.
-/

namespace ChartTemplate

open Entries (keys get? insertAll)

/-! ## Sizes -/

@[simp] theorem size_arr (js : List Json) : (Json.arr js).size = 1 + sizeOfItems js := by
  rw [Json.size]

@[simp] theorem size_obj (ms : Members) : (Json.obj ms).size = 1 + sizeOfMembers ms := by
  rw [Json.size]

theorem Json.size_pos (j : Json) : 0 < j.size := by
  cases j with
  | arr js => rw [size_arr]; omega
  | obj ms => rw [size_obj]; omega
  | _ => exact Nat.one_pos

theorem width_le_room (j : Json) (width : Nat) :
    width ≤ j.size + 3 * (j.size * (width + 1)) + 3 := by
  have h := Nat.mul_le_mul_right (width + 1) j.size_pos
  omega

theorem isComposite_cell (c : Cell) : c.toJson.isComposite = false := by
  cases c with
  | number x =>
    simp only [Cell.toJson, Json.ofFloat]
    split_ifs <;> rfl
  | _ => rfl

namespace Pass

/-- The pass fills columns of at most `width` cells. -/
def Within (p : Pass) (width : Nat) : Prop :=
  ∀ {path k v f}, p.fill path k v = some f → f.2.length ≤ width

/-- Entries that hold columns of at most `width` cells. -/
def Columns (width : Nat) (ws : Members) : Prop :=
  ∀ f ∈ ws, ∃ cells : List Cell, f.2 = columnJson cells ∧ cells.length ≤ width

theorem columns_append {width : Nat} {ws us : Members} (hws : Columns width ws)
    (hus : Columns width us) : Columns width (ws ++ us) := fun f hf =>
  (List.mem_append.1 hf).elim (hws f) (hus f)

theorem columns_fires? {p : Pass} {width : Nat} (hwidth : p.Within width) (pl : Place)
    (taken : List String) (k : String) (v : Json) :
    Columns width (p.fires? pl taken k v).toList := by
  intro f hf
  obtain ⟨_, cells, hfill, hcells⟩ :=
    filling?_eq_some (fires?_eq_some (Option.mem_toList.1 hf)).2.2
  exact ⟨cells, hcells, hwidth hfill⟩

/-! ## One member -/

variable {p : Pass} {pl : Place} {k : String} {v : Json}

/-- The entries in which `k` stands between `done` and `rest`, after some writes of other names. -/
theorem insert_insertAll_between {done rest ws : Members} (hdone : k ∉ keys done)
    (hws : k ∉ keys ws) (v w : Json) :
    Entries.insert (insertAll (done ++ (k, v) :: rest) ws) k w =
      insertAll (done ++ (k, w) :: rest) ws := by
  have hmem : k ∈ keys (done ++ (k, v) :: rest) := by simp
  rw [Entries.insert_insertAll hws hmem, Entries.insert_append_cons hdone]

theorem insertAll_between {done rest ws : Members} (hdone : k ∉ keys done) (hws : k ∈ keys ws)
    (v w : Json) :
    insertAll (done ++ (k, v) :: rest) ws = insertAll (done ++ (k, w) :: rest) ws := by
  have hmem : k ∈ keys (done ++ (k, v) :: rest) := by simp
  rw [← Entries.insert_append_cons hdone v w, Entries.insertAll_insert hws hmem]

theorem get?_insertAll_between {done ws : Members} (hdone : k ∉ keys done)
    (hws : k ∉ keys ws) (rest : Members) (v : Json) :
    get? (insertAll (done ++ (k, v) :: rest) ws) k = some v := by
  rw [Entries.get?_insertAll, Entries.lastWrite?_eq_none_iff.2 hws, Entries.get?_append,
    Entries.get?_eq_none_iff.2 hdone, Entries.get?_cons, if_pos rfl]
  rfl

theorem get?_insertAll_column {width : Nat} {ws : Members} (hws : Columns width ws)
    (hk : k ∈ keys ws) (ms : Members) :
    ∃ cells : List Cell, get? (insertAll ms ws) k = some (columnJson cells) ∧
      cells.length ≤ width := by
  obtain ⟨x, hmem, hx⟩ := Entries.get?_insertAll_of_mem ms hk
  obtain ⟨cells, hcells, hlen⟩ := hws _ hmem
  exact ⟨cells, by rw [hx]; exact congrArg some hcells, hlen⟩

theorem edit_between {done rest ws : Members} {path : String} (hdone : k ∉ keys done)
    (hws : k ∉ keys ws) (v : Json) :
    p.edit path k v (insertAll (done ++ (k, v) :: rest) ws) =
      insertAll (done ++ (k, p.rewrite path k v) :: rest)
        (ws ++ (p.filling? path k v).toList) := by
  rw [edit, ← Entries.insertAll_append, insert_insertAll_between hdone]
  rw [Entries.keys_append, List.mem_append, not_or]
  exact ⟨hws, not_mem_keys_filling? path k v⟩

end Pass

/-! ## The walk -/

section

variable {σ : Type} {v : Visitor σ} {p : Pass} {note : σ → MemberVisit → σ} {width : Nat}

theorem walkNode_scalar (hv : v.Follows p note) (fuel : Nat) (s : σ) (key : Key) (path : String)
    {j : Json} (hj : j.isComposite = false) :
    walkNode v (fuel + 1) s key j path = some (s, j) := by
  cases j with
  | arr js => cases hj
  | obj ms => cases hj
  | _ => exact congrArg (fun s => some (s, _)) (hv.leaf s key _ path)

theorem walkArray_of_scalars (hv : v.Follows p note) (fuel : Nat) (s : σ) (name path : String)
    (done js : List Json) (hjs : ∀ j ∈ js, j.isComposite = false) (hfuel : js.length + 2 ≤ fuel) :
    walkArray v fuel s name done.length (done ++ js) path = some (s, done ++ js) := by
  induction js generalizing done fuel with
  | nil =>
    obtain ⟨fuel, rfl⟩ : ∃ n, fuel = n + 1 := ⟨fuel - 1, by omega⟩
    rw [walkArray, if_neg (by simp)]
    rfl
  | cons j js ih =>
    obtain ⟨fuel, rfl⟩ : ∃ n, fuel = n + 2 := ⟨fuel - 2, by simp at hfuel; omega⟩
    have hnode := walkNode_scalar hv fuel s (.index done.length) (itemPath path done.length name)
      (hjs j List.mem_cons_self)
    rw [walkArray, if_pos (by simp), hv.element]
    simp only [List.getElem?_append_right (Nat.le_refl _), Nat.sub_self, List.getElem?_cons_zero,
      hnode, Option.bind_eq_bind, Option.bind_some, List.set_append_right _ _ (Nat.le_refl _),
      List.set_cons_zero]
    have := ih (fuel + 1) (done ++ [j]) (fun x hx => hjs x (List.mem_cons_of_mem _ hx))
      (by simp at hfuel; omega)
    simpa using this

/-! ### What stands under the first name -/

theorem walkMembers_column (hv : v.Follows p note) (fuel : Nat) (s : σ) (ks : List String)
    (path : String) {k : String} {ms : Members} {cells : List Cell}
    (hget : get? ms k = some (columnJson cells)) (hfuel : cells.length + 2 ≤ fuel) :
    walkMembers v (fuel + 1) s (k :: ks) ms path = walkMembers v fuel s ks ms path := by
  have hcells := walkArray_of_scalars hv fuel s k path [] (cells.map Cell.toJson)
    (by simp [isComposite_cell]) (by simpa using hfuel)
  rw [List.nil_append, List.length_nil] at hcells
  have hself := Entries.insert_eq_self hget
  rw [columnJson] at hget hself
  rw [walkMembers, hget]
  simp only [hcells, Option.bind_eq_bind, Option.bind_some]
  rw [hself]

theorem walkMembers_array {fuel : Nat} {s s' : σ} {path k : String} {ms : Members}
    {js js' : List Json} (ks : List String) (hget : get? ms k = some (.arr js))
    (hwalk : walkArray v fuel s k 0 js path = some (s', js')) :
    walkMembers v (fuel + 1) s (k :: ks) ms path =
      walkMembers v fuel s' ks (Entries.insert ms k (.arr js')) path := by
  rw [walkMembers, hget]
  simp only [hwalk, Option.bind_eq_bind, Option.bind_some]

theorem walkMembers_visited (hv : v.Follows p note) (fuel : Nat) (s : σ) (ks : List String)
    (path : String) {k : String} {ms : Members} {x : Json} (hnodup : (keys ms).Nodup)
    (hget : get? ms k = some x) (hx : x.isArray = false) :
    walkMembers v (fuel + 1) s (k :: ks) ms path =
      if (p.rewrite path k x).isComposite then do
        let (s, child) ← walkNode v fuel (note s ⟨path, k, x⟩) (.name k) (p.rewrite path k x)
          (memberPath path k)
        walkMembers v fuel s ks (Entries.insert (p.edit path k x ms) k child) path
      else walkMembers v fuel (note s ⟨path, k, x⟩) ks (p.edit path k x ms) path := by
  have hchild : get? (p.edit path k x ms) k = some (p.rewrite path k x) :=
    Entries.get?_insert_self _ _ _
  have hmember := hv.member s k ms path x hnodup hget hx
  rw [walkMembers, hget]
  cases x with
  | arr js => cases hx
  | _ => simp only [hmember, hchild]

theorem walkMembers_child (hv : v.Follows p note) {fuel : Nat} {s s' : σ} (ks : List String)
    {path k : String} {done rest ws : Members} {x child : Json}
    (hnodup : (keys (insertAll (done ++ (k, x) :: rest) ws)).Nodup) (hdone : k ∉ keys done)
    (hws : k ∉ keys ws) (hx : x.isArray = false) (hcomp : (p.rewrite path k x).isComposite = true)
    (hwalk : walkNode v fuel (note s ⟨path, k, x⟩) (.name k) (p.rewrite path k x)
      (memberPath path k) = some (s', child)) :
    walkMembers v (fuel + 1) s (k :: ks) (insertAll (done ++ (k, x) :: rest) ws) path =
      walkMembers v fuel s' ks
        (insertAll (done ++ (k, child) :: rest) (ws ++ (p.filling? path k x).toList)) path := by
  have hget := Pass.get?_insertAll_between hdone hws rest x
  have hfilled : k ∉ keys (ws ++ (p.filling? path k x).toList) := by
    rw [Entries.keys_append, List.mem_append, not_or]
    exact ⟨hws, Pass.not_mem_keys_filling? _ _ _⟩
  rw [walkMembers_visited hv fuel s ks path hnodup hget hx, if_pos hcomp,
    Pass.edit_between hdone hws]
  simp only [hwalk, Option.bind_eq_bind, Option.bind_some]
  rw [Pass.insert_insertAll_between hdone hfilled]

theorem walkMembers_leaf (hv : v.Follows p note) (fuel : Nat) (s : σ) (ks : List String)
    {path k : String} {done rest ws : Members} {x : Json}
    (hnodup : (keys (insertAll (done ++ (k, x) :: rest) ws)).Nodup) (hdone : k ∉ keys done)
    (hws : k ∉ keys ws) (hx : x.isArray = false)
    (hcomp : (p.rewrite path k x).isComposite = false) :
    walkMembers v (fuel + 1) s (k :: ks) (insertAll (done ++ (k, x) :: rest) ws) path =
      walkMembers v fuel (note s ⟨path, k, x⟩) ks
        (insertAll (done ++ (k, p.rewrite path k x) :: rest)
          (ws ++ (p.filling? path k x).toList)) path := by
  have hget := Pass.get?_insertAll_between hdone hws rest x
  rw [walkMembers_visited hv fuel s ks path hnodup hget hx, hcomp, if_neg Bool.false_ne_true,
    Pass.edit_between hdone hws]

/-- **One member**: the walk makes the visits to it and in it, puts its outcome in its place, and adds
what it fills, provided that the walks of what it holds do. -/
theorem walkMembers_member (hv : v.Follows p note) (fuel : Nat) (s : σ) (ks : List String)
    {pl : Place} {k : String} {done rest ws : Members} {x : Json}
    (hnodup : (keys (insertAll (done ++ (k, p.entering pl k x) :: rest) ws)).Nodup)
    (hdone : k ∉ keys done) (hws : Pass.Columns width ws) (hfuel : width + 2 ≤ fuel)
    (harray : ∀ js, x = .arr js → walkArray v fuel s k 0 js pl.path =
      some ((p.visits (.member pl.path k) x).foldl note s, p.items (.member pl.path k) 0 js))
    (hobject : ∀ inner s, x = .obj inner →
      walkNode v fuel s (.name k) (.obj (p.entered (.member pl.path k) inner))
          (memberPath pl.path k) =
        some ((p.visits (.member pl.path k) x).foldl note s, p.node (.member pl.path k) x)) :
    walkMembers v (fuel + 1) s (k :: ks) (insertAll (done ++ (k, p.entering pl k x) :: rest) ws)
        pl.path =
      walkMembers v fuel ((p.visitsAt pl (keys ws) k x).foldl note s) ks
        (insertAll (done ++ (k, p.outcome pl k x) :: rest)
          (ws ++ (p.fires? pl (keys ws) k x).toList)) pl.path := by
  by_cases htaken : k ∈ keys ws
  · -- An earlier sibling filled the member with a column.
    obtain ⟨cells, hget, hlen⟩ := Pass.get?_insertAll_column hws htaken
      (done ++ (k, p.entering pl k x) :: rest)
    rw [walkMembers_column hv fuel s ks pl.path hget (by omega), Pass.visitsAt_of_taken htaken,
      Pass.fires?_of_taken htaken, Option.toList_none, List.append_nil, List.foldl_nil,
      Pass.insertAll_between hdone htaken]
  cases harr : (p.entering pl k x).isArray with
  | true =>
    rw [Pass.fires?_of_array (keys ws) harr]
    obtain ⟨js, rfl, hjs, hsettled⟩ := Pass.of_entering_isArray harr
    have hget := Pass.get?_insertAll_between hdone htaken rest (.arr js)
    rw [Pass.visitsAt_of_array htaken harr hsettled, Pass.outcome_of_not_settled hsettled, hjs,
      walkMembers_array ks hget (harray js rfl), Pass.insert_insertAll_between hdone htaken,
      Option.toList_none, List.append_nil, Pass.node]
  | false =>
    rw [Pass.fires?_of_visited harr htaken]
    cases hsettled : p.settled? pl k x with
    | some t =>
      have hrewrite := Pass.rewrite_of_settled hsettled
      rw [Pass.visitsAt_of_settled htaken harr hsettled, Pass.outcome_of_settled hsettled,
        walkMembers_leaf hv fuel s ks hnodup hdone htaken harr (by rw [hrewrite]; rfl), hrewrite]
      rfl
    | none =>
      obtain ⟨hsame, hrewrite⟩ := Pass.rewrite_of_not_settled hsettled harr
      rw [Pass.visitsAt_of_visited htaken harr hsettled, Pass.outcome_of_not_settled hsettled,
        List.foldl_cons]
      rw [hsame] at harr hnodup ⊢
      cases x with
      | arr js => cases harr
      | obj inner =>
        exact walkMembers_child hv ks hnodup hdone htaken harr (by rw [hrewrite]; rfl)
          (by rw [hrewrite]; exact hobject inner _ rfl)
      | _ =>
        rw [walkMembers_leaf hv fuel s ks hnodup hdone htaken harr (by rw [hrewrite]; rfl),
          hrewrite, Pass.visits_scalar rfl, Pass.node_scalar rfl]
        rfl

theorem walkNode_of_walkMembers {fuel : Nat} {s s' : σ} {pl : Place} {ms ms' : Members} (key : Key)
    (h : walkMembers v fuel s (keys ms) (insertAll ([] ++ p.entered pl ms) []) pl.path =
      some (s', ms')) :
    walkNode v (fuel + 1) s key (.obj (p.entered pl ms)) pl.path = some (s', .obj ms') := by
  rw [List.nil_append, Entries.insertAll_nil] at h
  rw [walkNode, Pass.keys_entered]
  simp only [h, Option.bind_eq_bind, Option.bind_some]
  rfl

mutual

theorem walkNode_obj (hv : v.Follows p note) (hwidth : p.Within width) (fuel : Nat) (s : σ)
    (key : Key) (pl : Place) (ms : Members) (hms : (Json.obj ms).Distinct)
    (hfuel : 2 * sizeOfMembers ms + 2 + width ≤ fuel) :
    walkNode v fuel s key (.obj (p.entered pl ms)) pl.path =
      some ((p.visits pl (.obj ms)).foldl note s, p.node pl (.obj ms)) := by
  cases fuel with
  | zero => omega
  | succ fuel =>
    obtain ⟨hnodup, hdist⟩ := distinct_obj.1 hms
    rw [Pass.visits, Pass.node]
    exact walkNode_of_walkMembers key (walkMembers_eq hv hwidth fuel s pl [] [] ms
      (by simpa using hnodup) hdist (fun f hf => absurd hf List.not_mem_nil) (by omega))

theorem walkNode_here (hv : v.Follows p note) (hwidth : p.Within width) (fuel : Nat) (s : σ)
    (key : Key) (path : String) (j : Json) (hj : j.Distinct)
    (hfuel : 2 * j.size + width ≤ fuel) :
    walkNode v fuel s key j path =
      some ((p.visits (.here path) j).foldl note s, p.node (.here path) j) := by
  cases fuel with
  | zero =>
    have := j.size_pos
    omega
  | succ fuel =>
    cases j with
    | obj ms =>
      obtain ⟨hnodup, hdist⟩ := distinct_obj.1 hj
      rw [size_obj] at hfuel
      have h := walkNode_of_walkMembers key (walkMembers_eq hv hwidth fuel s (.here path) [] [] ms
        (by simpa using hnodup) hdist (fun f hf => absurd hf List.not_mem_nil) (by omega))
      rw [Pass.visits, Pass.node]
      rwa [Pass.entered_here] at h
    | arr js =>
      rw [size_arr] at hfuel
      have h := walkIndices_eq hv hwidth fuel s path [] js (distinct_arr.1 hj) (by omega)
      rw [List.nil_append, List.nil_append, List.length_nil] at h
      rw [walkNode]
      simp only [h, Option.bind_eq_bind, Option.bind_some]
      rw [Pass.visits, Pass.node]
      rfl
    | _ =>
      rw [walkNode_scalar hv fuel s key path rfl, Pass.visits_scalar rfl, Pass.node_scalar rfl]
      rfl

theorem walkMembers_eq (hv : v.Follows p note) (hwidth : p.Within width) (fuel : Nat) (s : σ)
    (pl : Place) (done ws ms : Members) (hnodup : (keys done ++ keys ms).Nodup)
    (hms : DistinctMembers ms) (hws : Pass.Columns width ws)
    (hfuel : 2 * sizeOfMembers ms + 1 + width ≤ fuel) :
    walkMembers v fuel s (keys ms) (insertAll (done ++ p.entered pl ms) ws) pl.path =
      some ((p.memberVisits pl (keys ws) ms).foldl note s,
        insertAll (done ++ p.members pl ms) (ws ++ p.filled pl (keys ws) ms)) := by
  cases fuel with
  | zero => omega
  | succ fuel =>
    match ms with
    | [] =>
      rw [Entries.keys_nil, walkMembers, Pass.memberVisits, Pass.members, Pass.filled,
        List.append_nil, List.append_nil, Pass.entered, List.map_nil, List.append_nil]
      rfl
    | (k, x) :: ms =>
      rw [sizeOfMembers] at hfuel
      have hsize := x.size_pos
      have hk : k ∉ keys done := fun h =>
        (List.nodup_append.1 hnodup).2.2 k h k List.mem_cons_self rfl
      have hcur : (keys (insertAll (done ++ (k, p.entering pl k x) :: p.entered pl ms) ws)).Nodup :=
        Entries.nodup_keys_insertAll (by simpa using hnodup) ws
      have hstep := walkMembers_member hv fuel s (keys ms) hcur hk hws (by omega)
        (fun js hx => by
          subst hx
          rw [size_arr] at hfuel
          exact walkArray_eq hv hwidth fuel s k pl.path (.member pl.path k) (fun _ => rfl) [] js
            (distinct_arr.1 hms.1) (by omega))
        (fun inner s hx => by
          subst hx
          rw [size_obj] at hfuel
          exact walkNode_obj hv hwidth fuel s (.name k) (.member pl.path k) inner hms.1 (by omega))
      have hrest := walkMembers_eq hv hwidth fuel ((p.visitsAt pl (keys ws) k x).foldl note s) pl
        (done ++ [(k, p.outcome pl k x)]) (ws ++ (p.fires? pl (keys ws) k x).toList) ms
        (by simpa using hnodup) hms.2
        (Pass.columns_append hws (Pass.columns_fires? hwidth pl (keys ws) k x)) (by omega)
      simp only [List.append_assoc, List.singleton_append, Entries.keys_append] at hrest
      rw [Pass.memberVisits_cons, Pass.members_cons, Pass.filled, List.foldl_append, ← hrest]
      exact hstep

theorem walkArray_eq (hv : v.Follows p note) (hwidth : p.Within width) (fuel : Nat) (s : σ)
    (name path : String) (pl : Place) (hpl : ∀ i, pl.nth i = .here (itemPath path i name))
    (done js : List Json) (hjs : DistinctItems js)
    (hfuel : 2 * sizeOfItems js + 1 + width ≤ fuel) :
    walkArray v fuel s name done.length (done ++ js) path =
      some ((p.itemVisits pl done.length js).foldl note s, done ++ p.items pl done.length js) := by
  cases fuel with
  | zero => omega
  | succ fuel =>
    match js with
    | [] =>
      rw [walkArray, if_neg (by simp), Pass.itemVisits, Pass.items]
      rfl
    | j :: js =>
      rw [sizeOfItems] at hfuel
      have hsize := j.size_pos
      have hnode := walkNode_here hv hwidth fuel s (.index done.length)
        (itemPath path done.length name) j hjs.1 (by omega)
      have hrest := walkArray_eq hv hwidth fuel
        ((p.visits (.here (itemPath path done.length name)) j).foldl note s) name path pl hpl
        (done ++ [p.node (.here (itemPath path done.length name)) j]) js hjs.2 (by omega)
      rw [walkArray, if_pos (by simp), hv.element]
      simp only [List.getElem?_append_right (Nat.le_refl _), Nat.sub_self, List.getElem?_cons_zero,
        hnode, Option.bind_eq_bind, Option.bind_some, List.set_append_right _ _ (Nat.le_refl _),
        List.set_cons_zero]
      rw [Pass.itemVisits, Pass.items, hpl, List.foldl_append]
      simpa using hrest

theorem walkIndices_eq (hv : v.Follows p note) (hwidth : p.Within width) (fuel : Nat) (s : σ)
    (path : String) (done js : List Json) (hjs : DistinctItems js)
    (hfuel : 2 * sizeOfItems js + 1 + width ≤ fuel) :
    walkIndices v fuel s done.length (done ++ js) path =
      some ((p.itemVisits (.here path) done.length js).foldl note s,
        done ++ p.items (.here path) done.length js) := by
  cases fuel with
  | zero => omega
  | succ fuel =>
    match js with
    | [] =>
      rw [walkIndices, List.append_nil, List.getElem?_eq_none (Nat.le_refl _), Pass.itemVisits,
        Pass.items, List.append_nil]
      rfl
    | j :: js =>
      rw [sizeOfItems] at hfuel
      have hsize := j.size_pos
      have hget : (done ++ j :: js)[done.length]? = some j := by simp
      have hset (e : Json) : (done ++ j :: js).set done.length e = done ++ [e] ++ js := by simp
      have hrest := walkIndices_eq hv hwidth fuel
        ((p.visits (.item path done.length) j).foldl note s) path
        (done ++ [p.node (.item path done.length) j]) js hjs.2 (by omega)
      rw [List.length_append, List.length_singleton] at hrest
      rw [Pass.itemVisits, Pass.items, Place.nth, List.foldl_append, walkIndices, hget,
        List.append_cons done (p.node _ _)]
      cases j with
      | arr inner =>
        rw [size_arr] at hfuel
        have hinner := walkArray_eq hv hwidth fuel s (indexName done.length) path
          (.item path done.length) (fun _ => rfl) [] inner (distinct_arr.1 hjs.1) (by omega)
        rw [List.nil_append, List.nil_append, List.length_nil] at hinner
        rw [Pass.visits, Pass.node] at hrest ⊢
        simp only [hinner, Option.bind_eq_bind, Option.bind_some, hset]
        exact hrest
      | obj ms =>
        rw [size_obj] at hfuel
        have hobj := walkNode_obj hv hwidth fuel s (.index done.length) (.item path done.length) ms
          hjs.1 (by omega)
        rw [Pass.entered_item] at hobj
        simp only [hv.element, hget, Json.isComposite, if_true]
        rw [Place.path] at hobj
        simp only [hobj, Option.bind_eq_bind, Option.bind_some, hset]
        exact hrest
      | _ =>
        rw [Pass.visits_scalar rfl, Pass.node_scalar rfl] at hrest ⊢
        simp only [hv.element, hget, Json.isComposite, Bool.false_eq_true, if_false]
        simpa using hrest

end

/-- **A walk that follows a pass** comes to its end, makes the visits of the pass in their order, and
leaves the outcome of the pass. -/
theorem walk?_eq (hv : v.Follows p note) (hwidth : p.Within width) (s : σ) {j : Json}
    (hj : j.Distinct) (path : String) {room : Nat} (hroom : width ≤ j.size + 3 * room + 3) :
    walk? v room s j path =
      some ((p.visits (.here path) j).foldl note s, p.node (.here path) j) :=
  walkNode_here hv hwidth _ s .root path j hj (by omega)

theorem walk_eq (hv : v.Follows p note) (hwidth : p.Within width) (s : σ) {j : Json}
    (hj : j.Distinct) (path : String) {room : Nat} (hroom : width ≤ j.size + 3 * room + 3) :
    walk v room s j path = ((p.visits (.here path) j).foldl note s, p.node (.here path) j) := by
  rw [walk, walk?_eq hv hwidth s hj path hroom, Option.getD_some]

end

end ChartTemplate
