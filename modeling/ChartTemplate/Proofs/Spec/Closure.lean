import ChartTemplate.Proofs.Spec.Remap

/-!
# Verifying after a mapping

A mapping that has a column of the table for every missing reference leaves nothing missing, with one
exception: a source field among the attributes of an encoding. It gets its column and fills its
sibling, which is an attribute too and names no column then. `verify_applyMapping_eq_nil_iff` gives
the exact condition, and `attribute_is_filled` an instance of the exception.

What the mapped specification holds at an address that is visited is the outcome of `remapPass` on
what was there, and each outcome names a column: if the mapping has nothing for a member, then
verification found nothing there.
-/

namespace ChartTemplate

open Entries (keys get? insertAll)

variable {mapping : Mapping} {dataset : Dataset}

/-- A mapping has a column for a source field among the attributes of an encoding, which is outside of
the data of the root and stays in the specification. -/
def FillsEncoding (mapping : Mapping) (dataset : Dataset) (spec : Json) : Prop :=
  ∃ a es key, (a ++ [Step.key encodeKey]).head? ≠ some (Step.key "dataset") ∧
    (remapPass mapping dataset).Keeps (.here mappingRoot) spec (a ++ [.key encodeKey]) ∧
    spec.at? (a ++ [.key encodeKey]) = some (.obj es) ∧
    key ∈ keys es ∧ (stripSourceSuffix? key).isSome = true ∧
    memberPath ((Place.here mappingRoot).along (a ++ [.key encodeKey])).path key ∈ keys mapping

/-! ## What is filled -/

/-- A source field for which the mapping has a column fills its sibling, unless it holds an array. -/
theorem fires?_remapPass {pl : Place} {key : String} {v : Json} :
    (remapPass mapping dataset).fires? pl [] key v = none ↔
      ((remapPass mapping dataset).entering pl key v).isArray = true ∨
        ¬((stripSourceSuffix? key).isSome = true ∧ memberPath pl.path key ∈ keys mapping) := by
  rw [← Entries.get?_isSome_iff]
  unfold Pass.fires?
  cases ((remapPass mapping dataset).entering pl key v).isArray with
  | true => simp
  | false =>
    unfold Pass.filling? remapPass
    cases hbase : stripSourceSuffix? key <;>
      cases hcolumn : get? mapping (memberPath pl.path key) <;> simp [hbase, hcolumn]

/-! ## What stays -/

/-- The mapping has a column of the table for every missing reference of a specification. -/
structure Complete (mapping : Mapping) (t : Table) (spec : Json) : Prop where
  /-- There is a column for what is found at a visit. -/
  reference : ∀ m ∈ Pass.idle.visits (.here mappingRoot) spec,
    ∀ u ∈ unresolvedAt t.names m, u.reference ∈ keys mapping
  /-- It is one of the table. -/
  column : ∀ {key column}, get? mapping key = some column → column ∈ t.names

/-- A member that gets no column has none under its name, and none under its path if it holds no
array. -/
theorem columns_of_not_settled {pl : Place} {key : String} {v : Json}
    (h : (remapPass mapping dataset).settled? pl key v = none) :
    columnByName? mapping pl key = none ∧
      (v.isArray = false → columnByPath? mapping pl.path key = none) := by
  rw [settled?_remapPass] at h
  split_ifs at h with harr
  · exact ⟨harr.2, fun hv => absurd harr.1 (by simp [hv])⟩
  · obtain ⟨hpath, hname⟩ := Option.or_eq_none_iff.1 h
    exact ⟨hname, fun _ => hpath⟩

section

variable {t : Table} {spec : Json} {pl : Place} {key : String} {v : Json}

theorem Complete.settled (hcomplete : Complete mapping t spec) {s : String}
    (h : (remapPass mapping dataset).settled? pl key v = some s) : s ∈ t.names := by
  rw [settled?_remapPass] at h
  split_ifs at h
  rcases Option.or_eq_some_iff.1 h with h | ⟨-, h⟩
  · rw [columnByPath?] at h
    split at h
    · exact hcomplete.column h
    · cases h
  · rw [columnByName?] at h
    split at h
    · exact hcomplete.column h
    · cases h

theorem Complete.namesColumn_outcome (hcomplete : Complete mapping t spec)
    (h : (remapPass mapping dataset).settled? pl key v = none → namesColumn t.names v = true) :
    namesColumn t.names ((remapPass mapping dataset).outcome pl key v) = true := by
  cases hsettled : (remapPass mapping dataset).settled? pl key v with
  | some s =>
    rw [Pass.outcome, hsettled]
    exact namesColumn_iff.2 ⟨s, rfl, hcomplete.settled hsettled⟩
  | none =>
    obtain ⟨name, rfl, hname⟩ := namesColumn_iff.1 (h hsettled)
    rw [Pass.outcome_of_not_settled hsettled]
    exact namesColumn_iff.2 ⟨name, rfl, hname⟩

theorem Complete.attribute (hcomplete : Complete mapping t spec) {path : String} {es : Members}
    (hvisit : ⟨path, encodeKey, .obj es⟩ ∈ Pass.idle.visits (.here mappingRoot) spec)
    (hmem : (key, v) ∈ es) (howner : pl.owner? = some encodeKey) :
    namesColumn t.names ((remapPass mapping dataset).outcome pl key v) = true := by
  refine hcomplete.namesColumn_outcome fun hsettled => ?_
  have hname := (columns_of_not_settled hsettled).1
  rw [columnByName?, if_pos howner, Entries.get?_eq_none_iff] at hname
  by_contra hmissing
  obtain ⟨u, hu, rfl⟩ := exists_unresolved_attribute hmem hmissing path
  exact hname (hcomplete.reference _ hvisit u hu)

theorem Complete.source (hcomplete : Complete mapping t spec)
    (hvisit : ⟨pl.path, key, v⟩ ∈ Pass.idle.visits (.here mappingRoot) spec)
    (harr : v.isArray = false) (hkey : (stripSourceSuffix? key).isSome = true) :
    namesColumn t.names ((remapPass mapping dataset).outcome pl key v) = true := by
  refine hcomplete.namesColumn_outcome fun hsettled => ?_
  have hpath := (columns_of_not_settled hsettled).2 harr
  rw [columnByPath?, if_pos hkey, Entries.get?_eq_none_iff] at hpath
  by_contra hmissing
  obtain ⟨u, hu, href⟩ := exists_unresolved_source hkey hmissing pl.path
  exact hpath (href ▸ hcomplete.reference _ hvisit u hu)

theorem Complete.encoding (hcomplete : Complete mapping t spec) {path : String} {es : Members}
    (hvisit : ⟨path, encodeKey, .obj es⟩ ∈ Pass.idle.visits (.here mappingRoot) spec)
    (howner : pl.owner? = some encodeKey)
    (hfilled : (remapPass mapping dataset).filled pl [] es = []) :
    unresolvedAttributes t.names ((remapPass mapping dataset).node pl (.obj es)) = [] := by
  rw [Pass.node, hfilled, Entries.insertAll_nil, unresolvedAttributes_obj_eq_nil_iff,
    Pass.members_eq_map]
  intro m hm
  obtain ⟨⟨key, v⟩, hmem, rfl⟩ := List.mem_map.1 hm
  exact hcomplete.attribute hvisit hmem howner

/-- After the mapping, nothing is missing at a member, unless a source field fills an attribute of the
encoding that it holds. -/
theorem Complete.unresolvedAt_node (hcomplete : Complete mapping t spec)
    (hfree : ¬FillsEncoding mapping dataset spec) {a : List Step} {x : Json}
    (houtside : (a ++ [Step.key key]).head? ≠ some (Step.key "dataset"))
    (hat : ((remapPass mapping dataset).node (.here mappingRoot) spec).at? (a ++ [.key key]) = some x)
    (harr : x.isArray = false) :
    unresolvedAt t.names ⟨((Place.here mappingRoot).along a).path, key, x⟩ = [] := by
  obtain ⟨xs, hxs, hx⟩ := Json.at?_concat_key.1 hat
  obtain ⟨hkeeps, ms, hms, rfl⟩ := Pass.keeps_of_at?_node hxs
  obtain ⟨-, cells, rfl⟩ | ⟨hfilled, v, hv, rfl⟩ := Pass.column_or_outcome hx
  · cases harr
  cases hsettled : (remapPass mapping dataset).settled? ((Place.here mappingRoot).along a) key v with
  | some s =>
    -- The member was given a column.
    have hname : namesColumn t.names ((remapPass mapping dataset).outcome
        ((Place.here mappingRoot).along a) key v) = true :=
      hcomplete.namesColumn_outcome fun h => absurd h (by simp [hsettled])
    exact unresolvedAt_eq_nil_iff.2
      ⟨fun _ => unresolvedAttributes_of_namesColumn hname, fun _ => hname⟩
  | none =>
    have hvarr : v.isArray = false := by
      cases v with
      | arr js => rw [Pass.outcome_of_not_settled hsettled, Pass.node] at harr; cases harr
      | _ => rfl
    have hvisit : ⟨((Place.here mappingRoot).along a).path, key, v⟩ ∈
        Pass.idle.visits (.here mappingRoot) spec := Pass.visit_of_address hms hv hvarr
    refine unresolvedAt_eq_nil_iff.2 ⟨?_, hcomplete.source hvisit hvarr⟩
    rintro rfl
    dsimp only
    rw [Pass.outcome_of_not_settled hsettled]
    cases v with
    | obj es =>
      refine hcomplete.encoding hvisit rfl (Pass.filled_eq_nil_iff.2 fun m hm => ?_)
      rw [fires?_remapPass]
      refine .inr fun hsource => hfree ⟨a, es, m.1, houtside,
        Pass.keeps_concat_key hkeeps hms hv hfilled hsettled,
        Json.at?_concat_key.2 ⟨ms, hms, hv⟩, List.mem_map.2 ⟨m, hm, rfl⟩, hsource.1, ?_⟩
      rw [Place.along_append]
      exact hsource.2
    | arr js => cases hvarr
    | _ => rfl

theorem not_namesColumn_columnJson (columns : List String) (cells : List Cell) :
    ¬namesColumn columns (columnJson cells) = true := by
  simp [columnJson, namesColumn]

theorem Complete.unresolvedAttributes_node (hcomplete : Complete mapping t spec) {path : String}
    {es : Members} (hvisit : ⟨path, encodeKey, .obj es⟩ ∈ Pass.idle.visits (.here mappingRoot) spec)
    (howner : pl.owner? = some encodeKey) (hmem : key ∈ keys es)
    (hkey : (stripSourceSuffix? key).isSome = true)
    (hmapped : memberPath pl.path key ∈ keys mapping) :
    unresolvedAttributes t.names ((remapPass mapping dataset).node pl (.obj es)) ≠ [] := by
  have hfilled : (remapPass mapping dataset).filled pl [] es ≠ [] := by
    intro hnil
    obtain ⟨⟨key, v⟩, hv, rfl⟩ := List.mem_map.1 hmem
    rcases fires?_remapPass.1 (Pass.filled_eq_nil_iff.1 hnil _ hv) with harr | hsource
    · -- An array is no name of a column, and is replaced when the encoding is entered.
      obtain ⟨js, rfl, -, hsettled⟩ := Pass.of_entering_isArray harr
      have hname : namesColumn t.names ((remapPass mapping dataset).outcome pl key (.arr js)) =
          true := hcomplete.attribute hvisit hv howner
      rw [Pass.outcome_of_not_settled hsettled] at hname
      simp [Pass.node, namesColumn] at hname
    · exact hsource ⟨hkey, hmapped⟩
  obtain ⟨f, hf⟩ := List.exists_mem_of_ne_nil _ hfilled
  obtain ⟨cells, hcells⟩ := Pass.get?_filled ((remapPass mapping dataset).members pl es)
    (List.mem_map.2 ⟨f, hf, rfl⟩)
  rw [Pass.node, Ne, unresolvedAttributes_obj_eq_nil_iff]
  exact fun h => not_namesColumn_columnJson t.names cells (h _ (Entries.mem_of_get? hcells))

theorem visits_dimensionsJson (d : Dataset) (path : String) :
    Pass.idle.visits (.member path "dataset") (dimensionsJson d) = [] := by
  have hitems (pl : Place) (i : Nat) (names : List String) :
      Pass.idle.itemVisits pl i (names.map Json.str) = [] := by
    induction names generalizing i with
    | nil => rfl
    | cons name names ih => rw [List.map_cons, Pass.itemVisits, ih, Pass.visits_scalar rfl]; rfl
  rw [dimensionsJson, Pass.visits, Pass.memberVisits_idle_cons, Pass.visits, hitems]
  rfl

theorem distinct_attachDataset {j : Json} (hj : j.Distinct) (d : Dataset) :
    (attachDataset j d).Distinct := by
  cases j with
  | obj ms =>
    have hdims : (dimensionsJson d).Distinct := by
      have hnames : DistinctItems (d.dimensions.map Json.str) := by
        rw [distinctItems_iff]
        intro x hx
        obtain ⟨name, -, rfl⟩ := List.mem_map.1 hx
        trivial
      simp [dimensionsJson, DistinctMembers, hnames]
    exact distinct_insert hj "dataset" hdims
  | _ => exact hj

theorem resolved_attachDataset {columns : List String} {j : Json} (hj : j.Distinct) (d : Dataset)
    (h : ∀ {a key x}, (a ++ [Step.key key]).head? ≠ some (Step.key "dataset") →
      j.at? (a ++ [.key key]) = some x → x.isArray = false →
        unresolvedAt columns ⟨((Place.here mappingRoot).along a).path, key, x⟩ = []) :
    Resolved columns (.here mappingRoot) (attachDataset j d) := by
  rintro ⟨path, key, x⟩ hm
  obtain ⟨a, ms, hat, hpath, hget, harr⟩ :=
    (Pass.mem_visits_idle_iff (distinct_attachDataset hj d)).1 hm
  dsimp only at hpath hget harr
  subst hpath
  by_cases hinside : (a ++ [Step.key key]).head? = some (Step.key "dataset")
  · cases a with
    | nil =>
      have hkey : "dataset" ≠ encodeKey ∧ ¬(stripSourceSuffix? "dataset").isSome = true := by decide
      obtain rfl : key = "dataset" := by simpa using hinside
      exact unresolvedAt_eq_nil_iff.2 ⟨fun h => absurd h hkey.1, fun h => absurd h hkey.2⟩
    | cons step a =>
      obtain rfl : step = .key "dataset" := by simpa using hinside
      cases j with
      | obj ms' =>
        rw [attachDataset, Json.at?, Entries.get?_insert_self] at hat
        have hvisit : ⟨((Place.member mappingRoot "dataset").along a).path, key, x⟩ ∈
            Pass.idle.visits (.member mappingRoot "dataset") (dimensionsJson d) :=
          Pass.visit_of_address hat hget harr
        rw [visits_dimensionsJson] at hvisit
        exact absurd hvisit List.not_mem_nil
      | _ => cases hat
  · exact h hinside (at?_attachDataset hinside j d ▸ Json.at?_concat_key.2 ⟨ms, hat, hget⟩) harr

/-- The mapped specification has nothing missing exactly if no source field fills an attribute. -/
theorem Complete.resolved_iff (hcomplete : Complete mapping t spec) (hspec : spec.Distinct)
    (d : Dataset) :
    Resolved t.names (.here mappingRoot)
        (attachDataset ((remapPass mapping d).node (.here mappingRoot) spec) d) ↔
      ¬FillsEncoding mapping d spec := by
  constructor
  · rintro hresolved ⟨a, es, key, houtside, hkeeps, hes, hmem, hkey, hmapped⟩
    obtain ⟨ms, hms, hget⟩ := Json.at?_concat_key.1 hes
    have hvisit : ⟨((Place.here mappingRoot).along a).path, encodeKey, .obj es⟩ ∈
        Pass.idle.visits (.here mappingRoot) spec := Pass.visit_of_address hms hget rfl
    have hnode := Pass.at?_node_of_keeps hkeeps hes
    rw [← at?_attachDataset houtside _ d] at hnode
    obtain ⟨xs, hxs, hx⟩ := Json.at?_concat_key.1 hnode
    have hencode := hresolved _ (Pass.visit_of_address hxs hx (by rw [Pass.node]; rfl))
    refine hcomplete.unresolvedAttributes_node hvisit ?_ hmem hkey hmapped
      ((unresolvedAt_eq_nil_iff.1 hencode).1 rfl)
    rw [Place.along_append]
    rfl
  · intro hfree
    exact resolved_attachDataset (Pass.distinct_node _ _ _ hspec) d
      fun houtside hat harr => hcomplete.unresolvedAt_node hfree houtside hat harr

end

/-- **Verifying after a mapping** that has a column of the table for every missing reference: nothing
is missing exactly if the text is nested too deep to be read again, or no source field with a new
column is an attribute of an encoding. -/
theorem verify_applyMapping_eq_nil_iff (text : String) (mapping : Mapping) (t : Table)
    (hreferences : ∀ u ∈ verify text t.names, u.reference ∈ keys mapping)
    (hcolumns : ∀ e ∈ mapping, e.2 ∈ t.names) :
    verify (applyMapping text mapping t.dataset) t.names = [] ↔
      Json.parse? (applyMapping text mapping t.dataset) = none ∨
        ¬FillsEncoding mapping t.dataset (safeParse text) := by
  have hspec := distinct_safeParse text
  have hcomplete : Complete mapping t (safeParse text) := by
    rw [verify_eq] at hreferences
    exact ⟨fun m hm u hu => hreferences u (List.mem_flatMap.2 ⟨m, hm, hu⟩),
      fun h => hcolumns _ (Entries.mem_of_get? h)⟩
  rw [applyMapping, appliedSpec_eq, verify_compress_eq_nil_iff
    (distinct_attachDataset (Pass.distinct_node _ _ _ hspec) _), hcomplete.resolved_iff hspec]

/-- An encoding with an attribute that is missing and a source field that is not. -/
def repairableChart : Json :=
  .obj [("encode", .obj [("color", .str "Missing"), ("xSrc", .str "Region")]),
    ("series", .arr [.obj [("ySrc", .null)]])]

/-- New columns for the missing references of `repairableChart`. -/
def repairingMapping : Mapping :=
  [("color", "Sales"), ("options[0].series.ySrc", "Region")]

/-- Nothing is missing once the mapping is applied. -/
theorem verify_repaired :
    (∀ u ∈ verify repairableChart.compress regions.names, u.reference ∈ keys repairingMapping) ∧
      (∀ e ∈ repairingMapping, e.2 ∈ regions.names) ∧
      verify (applyMapping repairableChart.compress repairingMapping regions.dataset)
        regions.names = [] := by
  have hread : safeParse repairableChart.compress = repairableChart := by
    refine (safeParse_compress ?_).trans rfl
    simp [repairableChart, DistinctMembers, DistinctItems, Json.Distinct]
  have hreferences : ∀ u ∈ verify repairableChart.compress regions.names,
      u.reference ∈ keys repairingMapping := by
    have hverify : verify repairableChart.compress regions.names =
        [⟨"color", "Missing"⟩, ⟨"options[0].series.ySrc", "null"⟩] := by
      rw [verify_eq, hread]
      rfl
    rw [hverify]
    decide
  have hcolumns : ∀ e ∈ repairingMapping, e.2 ∈ regions.names := by decide
  refine ⟨hreferences, hcolumns,
    (verify_applyMapping_eq_nil_iff _ _ regions hreferences hcolumns).2 (.inr ?_)⟩
  rw [hread]
  rintro ⟨a, es, key, -, -, hes, hmem, hkey, hmapped⟩
  obtain ⟨ms, hms, hget⟩ := Json.at?_concat_key.1 hes
  have hvisit : ⟨((Place.here mappingRoot).along a).path, encodeKey, .obj es⟩ ∈
      Pass.idle.visits (.here mappingRoot) repairableChart := Pass.visit_of_address hms hget rfl
  have hvisits : Pass.idle.visits (.here mappingRoot) repairableChart =
      [⟨"options", "encode", .obj [("color", .str "Missing"), ("xSrc", .str "Region")]⟩,
        ⟨"options.encode", "color", .str "Missing"⟩, ⟨"options.encode", "xSrc", .str "Region"⟩,
        ⟨"options[0].series", "ySrc", .null⟩] := rfl
  rw [hvisits] at hvisit
  obtain ⟨hpath, rfl⟩ : ((Place.here mappingRoot).along a).path = "options" ∧
      es = [("color", .str "Missing"), ("xSrc", .str "Region")] := by
    simpa [encodeKey] using hvisit
  have hpath' : ((Place.here mappingRoot).along (a ++ [.key encodeKey])).path = "options.encode" := by
    rw [Place.along_append]
    show memberPath ((Place.here mappingRoot).along a).path encodeKey = "options.encode"
    rw [hpath]
    rfl
  rw [hpath'] at hmapped
  rcases List.mem_cons.1 hmem with rfl | hmem
  · exact absurd hkey (by decide)
  · obtain rfl := List.mem_singleton.1 hmem
    exact absurd hmapped (by decide)

/-- An encoding with a source field that is missing. -/
def sourceInEncoding : Json :=
  .obj [("encode", .obj [("xSrc", .str "Missing")])]

/-- The new column for it, under its name and under its path. -/
def sourceMapping : Mapping :=
  [("xSrc", "Region"), ("options.encode.xSrc", "Region")]

/-- A source field among the attributes of an encoding fills an attribute, which is missing then. -/
theorem attribute_is_filled :
    Table.ofJson (.arr [.obj [("Region", .str "North"), ("Sales", .str "low")],
        .obj [("Region", .str "South"), ("Sales", .str "high")]]) = .ok regions ∧
      (verify sourceInEncoding.compress regions.names).map Unresolved.reference =
        keys sourceMapping ∧
      (∀ e ∈ sourceMapping, e.2 ∈ regions.names) ∧
      verify (applyMapping sourceInEncoding.compress sourceMapping regions.dataset) regions.names =
        [⟨"x", "[\"North\",\"South\"]"⟩] := by
  have hread : safeParse sourceInEncoding.compress = sourceInEncoding := by
    refine (safeParse_compress ?_).trans rfl
    simp [sourceInEncoding, DistinctMembers, Json.Distinct]
  have happlied : appliedSpec sourceInEncoding.compress sourceMapping regions.dataset =
      .obj [("encode", .obj [("xSrc", .str "Region"), ("x", .arr [.str "North", .str "South"])]),
        ("dataset", .obj [("dimensions", .arr [.str "Region", .str "Sales"])])] := by
    rw [appliedSpec_eq, hread]
    rfl
  refine ⟨rfl, ?_, by decide, ?_⟩
  · rw [verify_eq, hread]
    rfl
  · rw [applyMapping, happlied, verify_eq, safeParse_compress]
    · rfl
    · simp [DistinctMembers, DistinctItems, Json.Distinct]

end ChartTemplate
