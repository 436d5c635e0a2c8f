import ChartTemplate.Proofs.Json.Depth
import ChartTemplate.Proofs.Spec.Verified
import ChartTemplate.Proofs.Walk.Frame

/-!
# Binding again

The result of binding is bound a second time. In each object the source fields that a sibling filled
now hold columns, so they do not fire again, and all other source fields fire as they did before
(`boundFields_boundObject`). A field that was last filled by a source field that was itself filled
afterwards gets the column of an earlier one.

* `bind_bind_iff` : binding changes nothing the second time exactly if the objects that the first
  binding leaves are `Steady`, so that no field falls back to another column.
* `bind_bind_bind` : it changes nothing the third time.
-/

namespace ChartTemplate

open Entries (keys get? lastWrite?)

variable {t : Table} {ms : Members}

/-- The members that no source field of the object fills. -/
def unfilled (ms : Members) : Members :=
  ms.filter fun m => m.1 ∉ keys (boundFields [] ms)

/-- No field falls back to another column when the source fields that were filled fire no more. -/
def Steady (t : Table) (ms : Members) : Prop :=
  ∀ base name name', lastWrite? (boundFields [] ms) base = some name →
    lastWrite? (boundFields [] (unfilled ms)) base = some name' →
    columnOf t name' = columnOf t name

theorem isArray_of_filled (hms : (keys ms).Nodup) {m : String × Json} (hm : m ∈ boundObject t ms)
    (hfilled : m.1 ∈ keys (boundFields [] ms)) : m.2.isArray = true := by
  have hget := Entries.get?_of_mem (nodup_keys_boundObject hms) hm
  rw [get?_boundObject hms] at hget
  cases hlast : lastWrite? (boundFields [] ms) m.1 with
  | none => exact absurd hfilled (Entries.lastWrite?_eq_none_iff.1 hlast)
  | some name =>
    rw [hlast] at hget
    rw [← Option.some.inj hget]
    rfl

/-! ## The source fields that fire again -/

theorem boundFields_filter {p : String × Json → Bool} (taken : List String)
    (h : ∀ m ∈ ms, p m = false → m.2.isArray = true ∨ stripSourceSuffix? m.1 = none) :
    boundFields taken (ms.filter p) = boundFields taken ms := by
  induction ms generalizing taken with
  | nil => rfl
  | cons m ms ih =>
    obtain ⟨hm, hms⟩ := List.forall_mem_cons.1 h
    obtain ⟨k, v⟩ := m
    cases hp : p (k, v) with
    | true =>
      rw [List.filter_cons_of_pos hp, boundFields, boundFields]
      cases stripSourceSuffix? k <;> dsimp only <;> simp only [ih _ hms]
    | false =>
      rw [List.filter_cons_of_neg (by simp [hp]), ih _ hms, boundFields]
      rcases hm hp with harray | hplain
      · cases stripSourceSuffix? k <;> simp [harray]
      · simp [hplain]

theorem boundFields_map_bound (t : Table) (taken : List String) (ms : Members) :
    boundFields taken (ms.map fun m => (m.1, bound t m.2)) = boundFields taken ms := by
  induction ms generalizing taken with
  | nil => rfl
  | cons m ms ih =>
    obtain ⟨k, v⟩ := m
    simp only [List.map_cons, boundFields, isArray_bound, columnNamed_bound, ih]

theorem exists_of_mem_boundFields {taken : List String} {f : String × String}
    (hf : f ∈ boundFields taken ms) :
    ∃ m ∈ ms, stripSourceSuffix? m.1 = some f.1 ∧ m.2.isArray = false := by
  induction ms generalizing taken with
  | nil => exact absurd hf List.not_mem_nil
  | cons m ms ih =>
    have hrest {taken : List String} (hf : f ∈ boundFields taken ms) :
        ∃ m' ∈ m :: ms, stripSourceSuffix? m'.1 = some f.1 ∧ m'.2.isArray = false := by
      obtain ⟨m', hm', h⟩ := ih hf
      exact ⟨m', List.mem_cons_of_mem _ hm', h⟩
    rw [boundFields] at hf
    split at hf
    · rename_i base hsource
      split at hf
      · exact hrest hf
      · rename_i hfires
        rcases List.mem_cons.1 hf with rfl | hf
        · rw [Bool.or_eq_true, not_or] at hfires
          exact ⟨m, List.mem_cons_self, hsource, by simpa using hfires.1⟩
        · exact hrest hf
    · exact hrest hf

theorem mem_keys_boundFields {taken : List String} {m : String × Json} {base : String} (hm : m ∈ ms)
    (hsource : stripSourceSuffix? m.1 = some base) (harray : m.2.isArray = false)
    (htaken : m.1 ∉ taken) (hfilled : m.1 ∉ keys (boundFields taken ms)) :
    base ∈ keys (boundFields taken ms) := by
  induction ms generalizing taken with
  | nil => exact absurd hm List.not_mem_nil
  | cons e ms ih =>
    rw [boundFields] at hfilled ⊢
    rcases List.mem_cons.1 hm with rfl | hm
    · have hfires : ¬(m.2.isArray || taken.contains m.1) = true := by simp [harray, htaken]
      rw [hsource]
      dsimp only
      rw [if_neg hfires]
      exact List.mem_cons_self
    · split at hfilled
      · split at hfilled
        · rename_i hquiet
          rw [if_pos hquiet]
          exact ih hm htaken hfilled
        · rename_i hfires
          rw [if_neg hfires]
          rw [Entries.keys_cons, List.mem_cons, not_or] at hfilled
          exact List.mem_cons_of_mem _ (ih hm (by simp [htaken, hfilled.1]) hfilled.2)
      · exact ih hm htaken hfilled

/-- Fewer source fields fire the second time. -/
theorem keys_boundFields_unfilled {base : String}
    (h : base ∈ keys (boundFields [] (unfilled ms))) : base ∈ keys (boundFields [] ms) := by
  obtain ⟨f, hf, rfl⟩ := List.mem_map.1 h
  obtain ⟨m, hm, hsource, harray⟩ := exists_of_mem_boundFields hf
  obtain ⟨hm, hfilled⟩ := List.mem_filter.1 hm
  exact mem_keys_boundFields hm hsource harray List.not_mem_nil (by simpa using hfilled)

theorem boundFields_boundObject (hms : (keys ms).Nodup) :
    boundFields [] (boundObject t ms) = boundFields [] (unfilled ms) := by
  have hfires : boundFields [] ((boundObject t ms).filter fun m => m.1 ∉ keys (boundFields [] ms)) =
      boundFields [] (boundObject t ms) :=
    boundFields_filter [] fun m hm hp => .inl (isArray_of_filled hms hm (by simpa using hp))
  have hrest : (boundObject t ms).filter (fun m => m.1 ∉ keys (boundFields [] ms)) =
      (unfilled ms).map fun m => (m.1, bound t m.2) := by
    have := Entries.filter_override (boundMembers t ms) (boundColumns t ms)
    rw [keys_boundColumns] at this
    rw [boundObject, this, boundMembers_eq_map, List.filter_map]
    rfl
  rw [← hfires, hrest, boundFields_map_bound]

theorem keys_boundObject_boundObject (hms : (keys ms).Nodup) :
    keys (boundObject t (boundObject t ms)) = keys (boundObject t ms) := by
  have hknown : ∀ name ∈ keys (boundFields [] (boundObject t ms)), name ∈ keys (boundObject t ms) := by
    intro name hname
    rw [boundFields_boundObject hms] at hname
    exact (mem_keys_boundObject hms).2 (.inr (keys_boundFields_unfilled hname))
  rw [keys_boundObject (nodup_keys_boundObject hms), Entries.newNames_eq_nil hknown, List.append_nil]

/-- Binding an object again changes nothing if it is steady, and so are the values of the members that
were not filled. -/
theorem boundObject_boundObject_iff (hms : (keys ms).Nodup) :
    boundObject t (boundObject t ms) = boundObject t ms ↔
      Steady t ms ∧ ∀ k v, get? ms k = some v → k ∉ keys (boundFields [] ms) →
        bound t (bound t v) = bound t v := by
  have hnodup := nodup_keys_boundObject (t := t) hms
  -- What a member holds after the second binding, by what it holds after the first one.
  have hagain (key : String) : get? (boundObject t (boundObject t ms)) key =
      ((lastWrite? (boundFields [] (unfilled ms)) key).map (columnOf t)).or
        ((get? (boundObject t ms) key).map (bound t)) := by
    rw [get?_boundObject hnodup, boundFields_boundObject hms]
  have hiff : boundObject t (boundObject t ms) = boundObject t ms ↔
      ∀ key, get? (boundObject t (boundObject t ms)) key = get? (boundObject t ms) key :=
    ⟨fun h key => by rw [h], Entries.eq_of_get?_eq (nodup_keys_boundObject hnodup)
      (keys_boundObject_boundObject hms)⟩
  rw [hiff]
  constructor
  · intro h
    refine ⟨fun base name name' hlast hagain' => ?_, fun k v hk hfilled => ?_⟩
    · have := h base
      rw [hagain, hagain', get?_boundObject hms, hlast] at this
      exact Option.some.inj this
    · have hquiet : lastWrite? (boundFields [] (unfilled ms)) k = none :=
        Entries.lastWrite?_eq_none_iff.2 fun hk => hfilled (keys_boundFields_unfilled hk)
      have := h k
      rw [hagain, hquiet, get?_boundObject hms, Entries.lastWrite?_eq_none_iff.2 hfilled, hk] at this
      exact Option.some.inj this
  · rintro ⟨hsteady, hvalues⟩ key
    rw [hagain, get?_boundObject hms]
    cases hlast : lastWrite? (boundFields [] ms) key with
    | some name =>
      cases hlast' : lastWrite? (boundFields [] (unfilled ms)) key with
      | some name' => exact congrArg some (hsteady key name name' hlast hlast')
      | none => exact congrArg some (bound_columnOf t name)
    | none =>
      have hfilled := Entries.lastWrite?_eq_none_iff.1 hlast
      rw [Entries.lastWrite?_eq_none_iff.2 fun hk => hfilled (keys_boundFields_unfilled hk)]
      cases hget : get? ms key with
      | none => rfl
      | some v => exact congrArg some (hvalues key v hget hfilled)

/-! ## Binding a document -/

/-- The objects of a document that binding leaves are steady. -/
def SteadyWithin (t : Table) (j : Json) : Prop :=
  ∀ a ms xs, j.at? a = some (.obj ms) → (bound t j).at? a = some (.obj xs) → Steady t ms

theorem steadyWithin_scalar {j : Json} (h : j.isComposite = false) : SteadyWithin t j := by
  intro a ms xs hat _
  by_cases ha : a = []
  · subst ha
    rw [Option.some.inj hat] at h
    cases h
  · rw [Json.at?_scalar h ha] at hat
    cases hat

theorem steadyWithin_arr_iff {js : List Json} :
    SteadyWithin t (.arr js) ↔ ∀ j ∈ js, SteadyWithin t j := by
  have hitem (i : Nat) : (js.map (bound t))[i]? = js[i]?.map (bound t) := List.getElem?_map
  unfold SteadyWithin
  rw [bound_arr]
  constructor
  · intro h j hj a ms xs hat hbound
    obtain ⟨i, hi⟩ := List.mem_iff_getElem?.1 hj
    exact h (.index i :: a) ms xs (at?_arr_eq_some_iff.2 (.inr ⟨i, j, a, rfl, hi, hat⟩))
      (at?_arr_eq_some_iff.2 (.inr ⟨i, bound t j, a, rfl, by rw [hitem, hi]; rfl, hbound⟩))
  · intro h a ms xs hat hbound
    rcases at?_arr_eq_some_iff.1 hat with ⟨-, hms⟩ | ⟨i, j, b, rfl, hi, hat⟩
    · cases hms
    · rw [Json.at?, hitem, hi] at hbound
      exact h j (List.mem_of_getElem? hi) b ms xs hat hbound

theorem steadyWithin_obj_iff (hms : (keys ms).Nodup) :
    SteadyWithin t (.obj ms) ↔ Steady t ms ∧
      ∀ k v, get? ms k = some v → k ∉ keys (boundFields [] ms) → SteadyWithin t v := by
  unfold SteadyWithin
  rw [bound_obj]
  constructor
  · intro h
    refine ⟨h [] ms _ rfl rfl, fun k v hk hfilled a ms' xs hat hbound => ?_⟩
    refine h (.key k :: a) ms' xs (at?_obj_eq_some_iff.2 (.inr ⟨k, v, a, rfl, hk, hat⟩)) ?_
    rw [Json.at?, get?_boundObject hms, Entries.lastWrite?_eq_none_iff.2 hfilled, hk]
    exact hbound
  · rintro ⟨hsteady, hvalues⟩ a ms' xs hat hbound
    rcases at?_obj_eq_some_iff.1 hat with ⟨rfl, hms'⟩ | ⟨k, v, b, rfl, hk, hat⟩
    · exact Json.obj.inj hms' ▸ hsteady
    · rw [Json.at?, get?_boundObject hms] at hbound
      cases hlast : lastWrite? (boundFields [] ms) k with
      | some name =>
        -- There are no objects in a column.
        rw [hlast] at hbound
        have hcolumn : columnOf t name = columnJson (t.column name) := by
          simp [columnJson, columnOf, Table.column]
        rw [Option.map_some, Option.some_or, hcolumn] at hbound
        exact absurd hbound (at?_columnJson_ne_obj _ b xs)
      | none =>
        rw [hlast, hk] at hbound
        exact hvalues k v hk (Entries.lastWrite?_eq_none_iff.1 hlast) b ms' xs hat hbound

theorem bound_bound_iff (t : Table) (j : Json) (hj : j.Distinct) :
    bound t (bound t j) = bound t j ↔ SteadyWithin t j := by
  match j with
  | .null | .bool _ | .num _ | .str _ => exact ⟨fun _ => steadyWithin_scalar rfl, fun _ => rfl⟩
  | .arr js =>
    have hjs := distinctItems_iff.1 (distinct_arr.1 hj)
    have hitems : (js.map (bound t)).map (bound t) = js.map (bound t) ↔
        ∀ j ∈ js, bound t (bound t j) = bound t j := by
      rw [List.map_map, List.map_inj_left]
      rfl
    rw [bound_arr, bound_arr, Json.arr.injEq, hitems, steadyWithin_arr_iff]
    exact forall₂_congr fun x hmem => bound_bound_iff t x (hjs x hmem)
  | .obj ms =>
    obtain ⟨hnodup, hms⟩ := distinct_obj.1 hj
    rw [bound_obj, bound_obj, Json.obj.injEq, boundObject_boundObject_iff hnodup,
      steadyWithin_obj_iff hnodup]
    refine and_congr_right fun _ => forall₃_congr fun k v hk => imp_congr_right fun _ => ?_
    have hmem := Entries.mem_of_get? hk
    exact bound_bound_iff t v (distinctMembers_iff.1 hms _ hmem)
termination_by j.size
decreasing_by
  · rw [size_arr]
    have := Pass.size_le_of_mem_items hmem
    omega
  · rw [size_obj]
    have := Pass.size_le_of_mem_members hmem
    omega

theorem steady_of_plain (h : ∀ base ∈ keys (boundFields [] ms), stripSourceSuffix? base = none) :
    Steady t ms := by
  have hfields : boundFields [] (unfilled ms) = boundFields [] ms :=
    boundFields_filter [] fun m _ hm => .inr (h m.1 (by simpa using hm))
  intro base name name' hlast hagain
  rw [hfields, hlast] at hagain
  rw [Option.some.inj hagain]

/-- An object that was bound is steady: all source fields that fire hold what they held before. -/
theorem steady_boundObject (hms : (keys ms).Nodup) : Steady t (boundObject t ms) := by
  have hfields : boundFields [] (unfilled (boundObject t ms)) = boundFields [] (boundObject t ms) := by
    refine boundFields_filter [] fun m hm hfilled => .inl (isArray_of_filled hms hm ?_)
    rw [decide_eq_false_iff_not, not_not, boundFields_boundObject hms] at hfilled
    exact keys_boundFields_unfilled hfilled
  intro base name name' hlast hagain
  rw [hfields, hlast] at hagain
  rw [Option.some.inj hagain]

theorem of_at?_bound {j : Json} (hj : j.Distinct) {a : List Step} {xs : Members}
    (hat : (bound t j).at? a = some (.obj xs)) :
    ∃ ms, j.at? a = some (.obj ms) ∧ (keys ms).Nodup ∧ xs = boundObject t ms := by
  rw [← node_bindPass t (.here "") j hj] at hat
  obtain ⟨-, ms, hmsat, rfl⟩ := Pass.keeps_of_at?_node hat
  obtain ⟨hnodup, hms⟩ := distinct_obj.1 (hj.at? hmsat)
  refine ⟨ms, hmsat, hnodup, ?_⟩
  rw [members_bindPass t _ ms hms, filled_bindPass, boundObject, boundColumns,
    Entries.insertAll_eq_override (by simpa using hnodup)]

theorem steadyWithin_bound {j : Json} (hj : j.Distinct) : SteadyWithin t (bound t j) := by
  intro a xs _ hat _
  obtain ⟨ms, -, hms, rfl⟩ := of_at?_bound hj hat
  exact steady_boundObject hms

/-! ## Binding a chart -/

/-- **Binding again** changes nothing exactly if every object of the chart that binding leaves is
steady. -/
theorem bind_bind_iff (spec : Json) (t : Table) (hspec : spec.Distinct) :
    bind (bind spec t) t = bind spec t ↔
      ∀ a ms xs, (completeChart spec).at? a = some (.obj ms) →
        (bind spec t).at? a = some (.obj xs) → Steady t ms := by
  have hchart := distinct_chartMembers hspec
  rw [bind_of_isChart t (distinct_bind t hspec) (isChart_bind t hspec), completeChart_eq,
    bind_eq t hspec]
  exact bound_bound_iff t _ hchart

/-- Source fields of one field, of which another source field fills the last. -/
def contestedChart : Json :=
  .obj [("xSRC", .str "Region"), ("xSrc", .str "Sales"), ("xSrcSrc", .str "Region")]

theorem distinct_contestedChart : contestedChart.Distinct := by
  simp [contestedChart, DistinctMembers, Json.Distinct]

/-- A source field that fills another one, which is filled before it could fill its own field. -/
theorem steady_overlappingChart :
    overlappingChart.Distinct ∧ ∀ a ms xs, (completeChart overlappingChart).at? a = some (.obj ms) →
      (bind overlappingChart regions).at? a = some (.obj xs) → Steady regions ms := by
  refine ⟨distinct_overlappingChart,
    (bind_bind_iff overlappingChart regions distinct_overlappingChart).1 ?_⟩
  rw [bind_eq regions (distinct_bind regions distinct_overlappingChart),
    bind_eq regions distinct_overlappingChart]
  rfl

/-- A field that falls back to another column when the chart is bound again. -/
theorem bind_bind_contestedChart :
    (bind contestedChart regions).at? [.key "x", .index 0] = some (.str "low") ∧
      (bind (bind contestedChart regions) regions).at? [.key "x", .index 0] = some (.str "North") := by
  rw [bind_eq regions (distinct_bind regions distinct_contestedChart),
    bind_eq regions distinct_contestedChart]
  exact ⟨rfl, rfl⟩

theorem bind_bind_of_plain (t : Table) {spec : Json} (hspec : spec.Distinct)
    (hplain : ∀ a ms, (completeChart spec).at? a = some (.obj ms) →
      ∀ base ∈ keys (boundFields [] ms), stripSourceSuffix? base = none) :
    bind (bind spec t) t = bind spec t := by
  rw [bind_of_isChart t (distinct_bind t hspec) (isChart_bind t hspec), bind_eq t hspec,
    bound_bound_iff t _ (distinct_chartMembers hspec), ← completeChart_eq]
  exact fun a ms _ hat _ => steady_of_plain (hplain a ms hat)

/-- **Binding once more after that** changes nothing. -/
theorem bind_bind_bind (spec : Json) (t : Table) (hspec : spec.Distinct) :
    bind (bind (bind spec t) t) t = bind (bind spec t) t := by
  have hchart := distinct_chartMembers hspec
  have hbound := distinct_bind t hspec
  rw [bind_of_isChart t (distinct_bind t hbound) (isChart_bind t hbound),
    bind_of_isChart t hbound (isChart_bind t hspec), bound_bound_iff t _ hbound,
    bind_eq t hspec]
  exact steadyWithin_bound hchart

end ChartTemplate
