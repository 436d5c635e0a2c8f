import ChartTemplate.Proofs.Walk.Address
import ChartTemplate.Spec.Binding

/-!
# What binding computes

`bound t j` is the outcome of binding, by recursion on the document. In each object

* a source field fires unless it holds an array or an earlier source field of the object filled it
  (`boundFields`);
* the last source field that fires for a field decides what the field holds, and all other members
  hold what binding makes of them;
* members stay in place, and new fields follow in the order in which they are filled
  (`Entries.override`).

`bind_eq_bound` shows that the walk comes to its end and computes this.
-/

namespace ChartTemplate

open Entries (keys get? insertAll lastWrite?)

/-! ## The outcome -/

/-- The column that a source field names by its value: the one without a name if it holds no text. -/
def columnNamed : Json → String
  | .str name => name
  | _ => ""

/-- The document of a column: a value for each row, in order. -/
def columnOf (t : Table) (name : String) : Json :=
  .arr (t.rows.map fun r => ((r.get? name).getD .null).toJson)

/-- The fields that source fields fill, in order, with the names of their columns. The fields in
`taken` are filled already. -/
def boundFields (taken : List String) : Members → List (String × String)
  | [] => []
  | (k, v) :: ms =>
    match stripSourceSuffix? k with
    | some base =>
      if v.isArray || taken.contains k then boundFields taken ms
      else (base, columnNamed v) :: boundFields (taken ++ [base]) ms
    | none => boundFields taken ms

mutual

/-- A document with its source fields bound. -/
def bound (t : Table) : Json → Json
  | .arr js => .arr (boundItems t js)
  | .obj ms =>
    .obj (Entries.override (boundMembers t ms)
      ((boundFields [] ms).map fun f => (f.1, columnOf t f.2)))
  | j => j

/-- Documents with their source fields bound. -/
def boundItems (t : Table) : List Json → List Json
  | [] => []
  | j :: js => bound t j :: boundItems t js

/-- Members with the source fields in their values bound. -/
def boundMembers (t : Table) : List (String × Json) → List (String × Json)
  | [] => []
  | (k, j) :: ms => (k, bound t j) :: boundMembers t ms

end

/-! ## One object -/

section Object

variable {t : Table} {ms : Members}

/-- The columns that the source fields of an object fill in, in order. -/
def boundColumns (t : Table) (ms : Members) : Members :=
  (boundFields [] ms).map fun f => (f.1, columnOf t f.2)

/-- The members of an object with its source fields bound. -/
def boundObject (t : Table) (ms : Members) : Members :=
  Entries.override (boundMembers t ms) (boundColumns t ms)

theorem bound_obj (t : Table) (ms : Members) : bound t (.obj ms) = .obj (boundObject t ms) := rfl

theorem bound_arr (t : Table) (js : List Json) : bound t (.arr js) = .arr (js.map (bound t)) := by
  rw [bound]
  congr 1
  induction js with
  | nil => rfl
  | cons j js ih => rw [boundItems, ih, List.map_cons]

theorem bound_scalar {j : Json} (h : j.isComposite = false) : bound t j = j := by
  cases j <;> first | rfl | cases h

theorem boundMembers_eq_map (t : Table) (ms : Members) :
    boundMembers t ms = ms.map fun m => (m.1, bound t m.2) := by
  induction ms with
  | nil => rfl
  | cons m ms ih => rw [boundMembers, ih, List.map_cons]

theorem bound_columnOf (t : Table) (name : String) : bound t (columnOf t name) = columnOf t name := by
  rw [columnOf, bound_arr, List.map_map]
  congr 1
  exact List.map_congr_left fun r _ => bound_scalar (isComposite_cell _)

theorem isArray_bound (t : Table) (j : Json) : (bound t j).isArray = j.isArray := by
  cases j <;> rfl

theorem columnNamed_bound (t : Table) (j : Json) : columnNamed (bound t j) = columnNamed j := by
  cases j <;> rfl

@[simp] theorem keys_boundColumns (t : Table) (ms : Members) :
    keys (boundColumns t ms) = keys (boundFields [] ms) :=
  Entries.keys_map (fun _ name => columnOf t name) _

@[simp] theorem keys_boundMembers (t : Table) (ms : Members) : keys (boundMembers t ms) = keys ms := by
  rw [boundMembers_eq_map]
  exact Entries.keys_map (fun _ j => bound t j) ms

theorem get?_boundObject (hms : (keys ms).Nodup) (key : String) :
    get? (boundObject t ms) key =
      ((lastWrite? (boundFields [] ms) key).map (columnOf t)).or ((get? ms key).map (bound t)) := by
  rw [boundObject, ← Entries.insertAll_eq_override (by simpa using hms), Entries.get?_insertAll,
    boundColumns, Entries.lastWrite?_map, boundMembers_eq_map, Entries.get?_map fun _ j => bound t j]

theorem keys_boundObject (hms : (keys ms).Nodup) :
    keys (boundObject t ms) = keys ms ++ Entries.newNames (keys ms) (keys (boundFields [] ms)) := by
  rw [boundObject, ← Entries.insertAll_eq_override (by simpa using hms), Entries.keys_insertAll,
    keys_boundMembers, keys_boundColumns]

theorem mem_keys_boundObject (hms : (keys ms).Nodup) {key : String} :
    key ∈ keys (boundObject t ms) ↔ key ∈ keys ms ∨ key ∈ keys (boundFields [] ms) := by
  rw [keys_boundObject hms, List.mem_append, Entries.mem_newNames]
  tauto

theorem nodup_keys_boundObject (hms : (keys ms).Nodup) : (keys (boundObject t ms)).Nodup := by
  rw [boundObject, ← Entries.insertAll_eq_override (by simpa using hms)]
  exact Entries.nodup_keys_insertAll (by simpa using hms) _

end Object

/-! ## Charts -/

/-- The members of a chart, with options and series at the end if they are missing. -/
def chartMembers : Json → Members
  | .obj ms =>
    ms ++ (if "options" ∈ keys ms then [] else [("options", .obj [])]) ++
      (if "series" ∈ keys ms then [] else [("series", .arr [])])
  | _ => [("options", .obj []), ("series", .arr [])]

theorem members_withDefault (ms : Members) (key : String) (v : Json) :
    Members.withDefault ms key v = ms ++ if key ∈ keys ms then [] else [(key, v)] := by
  rw [Members.withDefault]
  by_cases h : key ∈ keys ms
  · rw [if_pos (Entries.contains_iff.2 h), if_pos h, List.append_nil]
  · rw [if_neg fun hc => h (Entries.contains_iff.1 hc), if_neg h, Entries.insert_of_not_mem h]

theorem completeChart_eq (spec : Json) : completeChart spec = .obj (chartMembers spec) := by
  cases spec with
  | obj ms =>
    rw [completeChart, chartMembers, members_withDefault, members_withDefault]
    congr 3
    by_cases h : "options" ∈ keys ms <;> simp [h]
  | _ => rfl

theorem distinct_chartMembers {spec : Json} (h : spec.Distinct) :
    (Json.obj (chartMembers spec)).Distinct := by
  have hdefault (ms : Members) (key : String) (v : Json) (hv : v.Distinct)
      (hms : (Json.obj ms).Distinct) : (Json.obj (Members.withDefault ms key v)).Distinct := by
    rw [Members.withDefault]
    split
    · exact hms
    · exact distinct_insert hms key hv
  rw [← completeChart_eq]
  cases spec with
  | obj ms =>
    exact hdefault _ _ _ trivial (hdefault _ _ _ (by simp [DistinctMembers]) h)
  | _ => exact distinct_emptyChart

theorem mem_keys_chartMembers (spec : Json) :
    "options" ∈ keys (chartMembers spec) ∧ "series" ∈ keys (chartMembers spec) := by
  cases spec with
  | obj ms =>
    rw [chartMembers, Entries.keys_append, Entries.keys_append]
    constructor
    · by_cases h : "options" ∈ keys ms <;> simp [h]
    · by_cases h : "series" ∈ keys ms <;> simp [h]
  | _ => simp [chartMembers]

/-- A document of the form of a chart: an object with options and series. -/
def Json.IsChart (j : Json) : Prop :=
  ∃ ms, j = .obj ms ∧ "options" ∈ keys ms ∧ "series" ∈ keys ms

theorem isChart_completeChart (spec : Json) : (completeChart spec).IsChart :=
  ⟨_, completeChart_eq spec, mem_keys_chartMembers spec⟩

theorem completeChart_eq_self {j : Json} (h : j.IsChart) : completeChart j = j := by
  obtain ⟨ms, rfl, hoptions, hseries⟩ := h
  rw [completeChart_eq, chartMembers, if_pos hoptions, if_pos hseries, List.append_nil,
    List.append_nil]

theorem isChart_bound (t : Table) {j : Json} (hj : j.Distinct) (h : j.IsChart) :
    (bound t j).IsChart := by
  obtain ⟨ms, rfl, hoptions, hseries⟩ := h
  have hnodup := (distinct_obj.1 hj).1
  exact ⟨_, bound_obj t ms, (mem_keys_boundObject hnodup).2 (.inl hoptions),
    (mem_keys_boundObject hnodup).2 (.inl hseries)⟩

/-! ## Binding as a pass -/

/-- A source field fills the field without the suffix with the column that it names. -/
def bindPass (t : Table) : Pass where
  relabel _ _ := none
  settle _ _ := none
  fill _ key v := (stripSourceSuffix? key).map fun base => (base, t.column (columnNamed v))
  fill_ne h := by
    obtain ⟨base, hbase, rfl⟩ := Option.map_eq_some_iff.1 h
    exact ne_of_stripSourceSuffix? hbase

theorem keepsValues_bindPass (t : Table) : (bindPass t).KeepsValues :=
  ⟨fun _ _ => rfl, fun _ _ => rfl⟩

theorem within_bindPass (t : Table) : (bindPass t).Within t.rows.length := by
  intro path k v f hf
  obtain ⟨base, -, rfl⟩ := Option.map_eq_some_iff.1 hf
  simp [Table.column]

theorem filling?_bindPass (t : Table) (path k : String) (v : Json) :
    (bindPass t).filling? path k v =
      (stripSourceSuffix? k).map fun base => (base, columnOf t (columnNamed v)) := by
  have hcolumn (name : String) : columnJson (t.column name) = columnOf t name := by
    simp [columnJson, columnOf, Table.column]
  simp [Pass.filling?, bindPass, Function.comp_def, hcolumn]

theorem columnVector_eq (t : Table) (name : String) : columnVector t name = columnOf t name := by
  simp [columnVector, columnOf, Table.column]

theorem referenceOf_eq {ms : Members} {key : String} {x : Json} (h : get? ms key = some x) :
    referenceOf ms key = columnNamed x := by
  rw [referenceOf, h]
  cases x <;> rfl

theorem follows_bindPass {σ : Type} (t : Table) {look : σ → String → Members → String → σ}
    {note : σ → MemberVisit → σ}
    (h : ∀ s k ms path x, get? ms k = some x → look s k ms path = note s ⟨path, k, x⟩) :
    (Visitor.ofMember fun s k ms path => (look s k ms path, bindMember t k ms)).Follows
      (bindPass t) note where
  member s k ms path x _ hget _ := by
    refine Prod.ext (h s k ms path x hget) ?_
    rw [(keepsValues_bindPass t).edit hget, filling?_bindPass]
    dsimp only [Visitor.ofMember]
    rw [bindMember, referenceOf_eq hget]
    cases stripSourceSuffix? k with
    | none => rfl
    | some base =>
      dsimp only
      rw [columnVector_eq]
      rfl
  element _ _ _ _ := rfl
  leaf _ _ _ _ := rfl

theorem filled_bindPass (t : Table) (pl : Place) (taken : List String) (ms : Members) :
    (bindPass t).filled pl taken ms =
      (boundFields taken ms).map fun f => (f.1, columnOf t f.2) := by
  induction ms generalizing taken with
  | nil => rfl
  | cons m ms ih =>
    obtain ⟨k, v⟩ := m
    rw [Pass.filled, boundFields, Pass.fires?, (keepsValues_bindPass t).entering,
      filling?_bindPass]
    cases stripSourceSuffix? k with
    | none => simp [ih]
    | some base =>
      dsimp only
      split <;> simp [ih]

mutual

theorem node_bindPass (t : Table) (pl : Place) (j : Json) (hj : j.Distinct) :
    (bindPass t).node pl j = bound t j := by
  cases j with
  | arr js => rw [Pass.node, bound, items_bindPass t pl 0 js (distinct_arr.1 hj)]
  | obj ms =>
    obtain ⟨hnodup, hms⟩ := distinct_obj.1 hj
    rw [Pass.node, bound, filled_bindPass, Entries.insertAll_eq_override (by simpa using hnodup),
      members_bindPass t pl ms hms]
  | _ => rfl

theorem members_bindPass (t : Table) (pl : Place) (ms : List (String × Json))
    (hms : DistinctMembers ms) : (bindPass t).members pl ms = boundMembers t ms := by
  match ms with
  | [] => rfl
  | (k, v) :: ms =>
    rw [Pass.members, (keepsValues_bindPass t).settled?, boundMembers,
      members_bindPass t pl ms hms.2]
    dsimp only
    rw [node_bindPass t (.member pl.path k) v hms.1]

theorem items_bindPass (t : Table) (pl : Place) (i : Nat) (js : List Json)
    (hjs : DistinctItems js) : (bindPass t).items pl i js = boundItems t js := by
  match js with
  | [] => rfl
  | j :: js =>
    rw [Pass.items, boundItems, node_bindPass t (pl.nth i) j hjs.1,
      items_bindPass t pl (i + 1) js hjs.2]

end

theorem walk?_completeChart {σ : Type} {t : Table} {v : Visitor σ} {note : σ → MemberVisit → σ}
    (hv : v.Follows (bindPass t) note) (s : σ) {spec : Json} (hspec : spec.Distinct) :
    walk? v (bindRoom t (completeChart spec)) s (completeChart spec) "" =
      some (((bindPass t).visits (.here "") (completeChart spec)).foldl note s,
        bound t (.obj (chartMembers spec))) := by
  have hdist : (completeChart spec).Distinct := completeChart_eq spec ▸ distinct_chartMembers hspec
  rw [bindRoom, walk?_eq hv (within_bindPass t) s hdist "" (width_le_room _ _),
    node_bindPass t _ _ hdist, completeChart_eq]

theorem walk?_bindVisitor (t : Table) {spec : Json} (hspec : spec.Distinct) :
    walk? (bindVisitor t) (bindRoom t (completeChart spec)) () (completeChart spec) "" =
      some ((), bound t (.obj (chartMembers spec))) := by
  have hv : (bindVisitor t).Follows (bindPass t) fun s _ => s :=
    follows_bindPass t fun _ _ _ _ _ _ => rfl
  exact walk?_completeChart hv () hspec

theorem bind_eq (t : Table) {spec : Json} (hspec : spec.Distinct) :
    bind spec t = bound t (.obj (chartMembers spec)) := by
  show (walk (bindVisitor t) (bindRoom t (completeChart spec)) () (completeChart spec) "").2 = _
  rw [walk, walk?_bindVisitor t hspec, Option.getD_some]

theorem distinct_bound (t : Table) {j : Json} (hj : j.Distinct) : (bound t j).Distinct :=
  node_bindPass t (.here "") j hj ▸ Pass.distinct_node (bindPass t) (.here "") j hj

theorem distinct_bind (t : Table) {spec : Json} (hspec : spec.Distinct) :
    (bind spec t).Distinct := by
  rw [bind_eq t hspec]
  exact distinct_bound t (distinct_chartMembers hspec)

theorem isChart_bind (t : Table) {spec : Json} (hspec : spec.Distinct) : (bind spec t).IsChart := by
  rw [bind_eq t hspec]
  exact isChart_bound t (distinct_chartMembers hspec)
    (completeChart_eq spec ▸ isChart_completeChart spec)

theorem bind_of_isChart (t : Table) {j : Json} (hj : j.Distinct) (h : j.IsChart) :
    bind j t = bound t j := by
  rw [bind_eq t hj, ← completeChart_eq, completeChart_eq_self h]

/-- **Binding**: it comes to its end on every chart, and binds each source field that fires, in the
members of the chart and at any depth. -/
theorem bind_eq_bound (spec : Json) (t : Table) (hspec : spec.Distinct) :
    walk? (bindVisitor t) (bindRoom t (completeChart spec)) () (completeChart spec) "" =
        some ((), bound t (.obj (chartMembers spec))) ∧
      bind spec t = bound t (.obj (chartMembers spec)) :=
  ⟨walk?_bindVisitor t hspec, bind_eq t hspec⟩

/-- A table of two rows. -/
def regions : Table where
  columns := [⟨"Region", 0, none⟩, ⟨"Sales", 1, none⟩]
  rows := [⟨[("Region", .text "North"), ("Sales", .text "low")], some "row:0"⟩,
    ⟨[("Region", .text "South"), ("Sales", .text "high")], some "row:1"⟩]
  distinct := by decide
  covered := by decide

/-- Source fields that overwrite a sibling, name each other, and stand in an array of arrays. -/
theorem bind_eq_bound_nested :
    let spec : Json := .obj [("ySrc", .str "Sales"), ("y", .arr [.null]),
      ("series", .arr [.arr [.obj [("xSrcSrc", .str "Region"), ("xSrc", .str "Sales"),
        ("zSRC", .null)]]])]
    spec.Distinct ∧ bind spec regions =
      .obj [("ySrc", .str "Sales"), ("y", .arr [.str "low", .str "high"]),
        ("series", .arr [.arr [.obj [("xSrcSrc", .str "Region"),
          ("xSrc", .arr [.str "North", .str "South"]), ("zSRC", .null),
          ("z", .arr [.null, .null])]]]),
        ("options", .obj [])] := by
  intro spec
  have hspec : spec.Distinct := by
    simp [spec, DistinctMembers, DistinctItems, Json.Distinct]
  refine ⟨hspec, (bind_eq_bound spec regions hspec).2.trans ?_⟩
  rfl

end ChartTemplate
