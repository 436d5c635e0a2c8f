import ChartTemplate.Proofs.Spec.Binding
import ChartTemplate.Proofs.Spec.Verify

/-!
# Binding a specification without missing references

A specification at which verification finds nothing binds columns of the table alone
(`bindings_of_verify_eq_nil`). Binding changes the document while it walks, and verification does
not: what it fills are columns, so binding visits no member that verification does not visit, with
the same value.
-/

namespace ChartTemplate

open Entries (keys get?)

/-- A source field that was bound. -/
structure Binding where
  path : String
  key : String
  /-- What the source field holds. -/
  held : Option Json
  /-- The field without the suffix. -/
  field : String
  /-- What that field holds after the visit. -/
  vector : Option Json

/-- The binding that a visit makes, from the members before and after it. -/
def bindingOf? (key path : String) (before after : Members) : Option Binding :=
  (stripSourceSuffix? key).map fun base => ⟨path, key, get? before key, base, get? after base⟩

/-- The visitor that binds, and keeps a record of what it bound. -/
def recordingVisitor (t : Table) : Visitor (List Binding) :=
  .ofMember fun made key ms path =>
    let after := ((bindVisitor t).member () key ms path).2
    (made ++ (bindingOf? key path ms after).toList, after)

/-- The run of binding, with the record of what it bound. -/
def bindRun (spec : Json) (t : Table) : Option (List Binding × Json) :=
  walk? (recordingVisitor t) (bindRoom t (completeChart spec)) [] (completeChart spec) ""

def bindingAt? (t : Table) (m : MemberVisit) : Option Binding :=
  (stripSourceSuffix? m.key).map fun base =>
    ⟨m.path, m.key, some m.value, base, some (columnOf t (columnNamed m.value))⟩

theorem bindRun_eq {spec : Json} (t : Table) (hspec : spec.Distinct) :
    bindRun spec t =
      some (((bindPass t).visits (.here "") (completeChart spec)).flatMap
        (fun m => (bindingAt? t m).toList), bound t (.obj (chartMembers spec))) := by
  have hv : (recordingVisitor t).Follows (bindPass t)
      fun made m => made ++ (bindingAt? t m).toList := by
    refine follows_bindPass t fun made key ms path x hget => congrArg (made ++ Option.toList ·) ?_
    show bindingOf? key path ms (bindMember t key ms) = bindingAt? t ⟨path, key, x⟩
    rw [bindingOf?, bindingAt?, hget]
    cases hbase : stripSourceSuffix? key with
    | none => rfl
    | some base =>
      have hafter : bindMember t key ms = Entries.insert ms base (columnOf t (columnNamed x)) := by
        simp only [bindMember, hbase, referenceOf_eq hget, columnVector_eq]
      rw [Option.map_some, Option.map_some, hafter, Entries.get?_insert_self]
  rw [bindRun, List.flatMap_eq_foldl, walk?_completeChart hv [] hspec]

/-! ## Visits in a completed chart -/

theorem memberVisits_idle_append (pl : Place) (ms ms' : Members) :
    Pass.idle.memberVisits pl [] (ms ++ ms') =
      Pass.idle.memberVisits pl [] ms ++ Pass.idle.memberVisits pl [] ms' := by
  induction ms with
  | nil => rfl
  | cons m ms ih =>
    rw [List.cons_append, Pass.memberVisits_idle_cons, Pass.memberVisits_idle_cons,
      ih, List.append_assoc _ _ (Pass.idle.memberVisits pl [] ms')]

theorem mem_visits_of_completeChart {pl : Place} {spec : Json} {m : MemberVisit}
    (hm : m ∈ Pass.idle.visits pl (completeChart spec))
    (hkey : (stripSourceSuffix? m.key).isSome = true) : m ∈ Pass.idle.visits pl spec := by
  have hoptions : m ∉ Pass.idle.memberVisits pl [] [("options", .obj [])] := by
    rw [Pass.memberVisits_idle_cons]
    intro hm
    obtain rfl : m = ⟨pl.path, "options", .obj []⟩ := by
      simpa [Json.isArray, Pass.visits, Pass.memberVisits] using hm
    exact absurd hkey (show ¬(stripSourceSuffix? "options").isSome = true by decide)
  have hseries : m ∉ Pass.idle.memberVisits pl [] [("series", .arr [])] := by
    rw [Pass.memberVisits_idle_cons]
    simp [Json.isArray, Pass.visits, Pass.itemVisits, Pass.memberVisits]
  -- The visits in a completed chart are those in the chart, followed by those in what completes it.
  rw [completeChart_eq, Pass.visits] at hm
  cases spec with
  | obj ms =>
    rw [chartMembers, memberVisits_idle_append, memberVisits_idle_append] at hm
    rcases List.mem_append.1 hm with hm | hm
    · rcases List.mem_append.1 hm with hm | hm
      · rwa [Pass.visits]
      · split at hm
        · exact absurd hm List.not_mem_nil
        · exact absurd hm hoptions
    · split at hm
      · exact absurd hm List.not_mem_nil
      · exact absurd hm hseries
  | _ =>
    change m ∈ Pass.idle.memberVisits pl [] ([("options", .obj [])] ++ [("series", .arr [])]) at hm
    rw [memberVisits_idle_append] at hm
    exact (List.mem_append.1 hm).elim (absurd · hoptions) (absurd · hseries)

/-! ## Columns of the table -/

theorem get?_of_mem_names {t : Table} {name : String} (h : name ∈ t.names) :
    t.rows.map (·.get? name) = (t.column name).map some := by
  obtain ⟨c, hc, rfl⟩ := List.mem_map.1 h
  rw [Table.column, List.map_map]
  refine List.map_congr_left fun r hr => ?_
  obtain ⟨cell, hcell⟩ := Option.isSome_iff_exists.1 (t.covered r hr c hc)
  rw [Function.comp, show r.get? c.name = some cell from hcell]
  rfl

/-- **Binding what was verified**: each source field that is bound holds the name of a column of the
table, and fills its field with the cells that the rows have in that column. -/
theorem bindings_of_verify_eq_nil (text : String) (t : Table)
    (hverify : verify text t.names = []) :
    ∃ made, bindRun (safeParse text) t = some (made, bind (safeParse text) t) ∧
      ∀ b ∈ made, ∃ name cells, b.held = some (.str name) ∧ name ∈ t.names ∧
        t.rows.map (·.get? name) = cells.map some ∧ b.vector = some (columnJson cells) := by
  have hspec := distinct_safeParse text
  rw [bind_eq t hspec, bindRun_eq t hspec]
  refine ⟨_, rfl, fun b hb => ?_⟩
  obtain ⟨m, hm, hb⟩ := List.mem_flatMap.1 hb
  obtain ⟨base, hbase, rfl⟩ := Option.map_eq_some_iff.1 (Option.mem_toList.1 hb)
  have hsource : (stripSourceSuffix? m.key).isSome = true := by rw [hbase]; rfl
  -- Verification visits the member too, with the value that binding sees.
  obtain ⟨path, hpath⟩ :=
    Pass.exists_idle_visit (keepsValues_bindPass t) _ (.here mappingRoot) _ hm
  have hvisit := mem_visits_of_completeChart hpath hsource
  rw [verify_eq, List.flatMap_eq_nil_iff] at hverify
  obtain ⟨name, hname, hcolumn⟩ :=
    namesColumn_iff.1 ((unresolvedAt_eq_nil_iff.1 (hverify _ hvisit)).2 hsource)
  dsimp only at hname
  refine ⟨name, t.column name, by rw [hname], hcolumn, get?_of_mem_names hcolumn, ?_⟩
  rw [hname, columnOf, columnNamed]
  simp [columnJson, Table.column]

/-- A source field that fills another one, and a source field in an array. -/
def overlappingChart : Json :=
  .obj [("xSrcSrc", .str "Sales"), ("xSrc", .str "Region"),
    ("series", .arr [.obj [("ySRC", .str "Region")]])]

theorem distinct_overlappingChart : overlappingChart.Distinct := by
  simp [overlappingChart, DistinctMembers, DistinctItems, Json.Distinct]

/-- Two columns are bound, and the source field that was filled is not. -/
theorem bindings_of_overlappingChart :
    verify overlappingChart.compress regions.names = [] ∧
      (∃ made, bindRun (safeParse overlappingChart.compress) regions =
          some (made, bind (safeParse overlappingChart.compress) regions) ∧
        ∀ b ∈ made, ∃ name cells, b.held = some (.str name) ∧ name ∈ regions.names ∧
          regions.rows.map (·.get? name) = cells.map some ∧
          b.vector = some (columnJson cells)) ∧
      (bindRun (safeParse overlappingChart.compress) regions).map (·.1.map Binding.key) =
        some ["xSrcSrc", "ySRC"] := by
  have hread : safeParse overlappingChart.compress = overlappingChart :=
    (safeParse_compress distinct_overlappingChart).trans rfl
  have hverify : verify overlappingChart.compress regions.names = [] := by
    rw [verify_eq, hread]
    rfl
  refine ⟨hverify, bindings_of_verify_eq_nil overlappingChart.compress regions hverify, ?_⟩
  rw [hread, bindRun_eq regions distinct_overlappingChart]
  rfl

end ChartTemplate
