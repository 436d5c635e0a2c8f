import ChartTemplate.Proofs.Json.Reading
import ChartTemplate.Proofs.Spec.Binding
import ChartTemplate.Proofs.Spec.Verify
import ChartTemplate.Proofs.Walk.Address

/-!
# What a mapping changes

Applying a mapping is the pass `remapPass` (`appliedSpec_eq`): attributes of encodings get the columns
that the mapping has under their names, source fields those that it has under their paths, and source
fields that get a column fill their siblings.

`at?_appliedSpec_iff` : a text in the specification stays where it is exactly if the pass keeps the way
to it, no sibling fills its member, and the mapping has no other text for it. That it named a column
before is not enough (`resolved_references_change`).
-/

namespace ChartTemplate

open Entries (keys get? insertAll)

/-! ## Applying a mapping as a pass -/

/-- The cells of a dimension, row by row; nulls if there is no such dimension. -/
def Dataset.cells (d : Dataset) (name : String) : List Cell :=
  d.source.map fun row => ((d.position? name).bind fun i => row[i]?).getD .null

theorem Dataset.arr_vector (d : Dataset) (name : String) :
    .arr (d.vector name) = columnJson (d.cells name) := by
  have hcell (o : Option Cell) : (o.map Cell.toJson).getD .null = (o.getD .null).toJson := by
    cases o <;> rfl
  rw [vector, columnJson, cells, List.map_map]
  exact congrArg Json.arr (List.map_congr_left fun row _ => hcell _)

/-- The column that a mapping has for a source field, under its path. -/
def columnByPath? (mapping : Mapping) (path key : String) : Option String :=
  if (stripSourceSuffix? key).isSome then get? mapping (memberPath path key) else none

/-- The column that a mapping has for an attribute of an encoding, under its name. -/
def columnByName? (mapping : Mapping) (pl : Place) (key : String) : Option String :=
  if pl.owner? = some encodeKey then get? mapping key else none

/-- The column that a mapping has for a member of the object at a place: the one under its path, if
there are two. -/
def newColumn? (mapping : Mapping) (pl : Place) (key : String) : Option String :=
  (columnByPath? mapping pl.path key).or (columnByName? mapping pl key)

/-- Attributes of encodings and source fields get their new columns, and source fields fill their
siblings with them. -/
def remapPass (mapping : Mapping) (dataset : Dataset) : Pass where
  relabel owner key := if owner == encodeKey then get? mapping key else none
  settle := columnByPath? mapping
  fill path key _ :=
    (stripSourceSuffix? key).bind fun base =>
      (get? mapping (memberPath path key)).map fun column => (base, dataset.cells column)
  fill_ne h := by
    obtain ⟨base, hbase, h⟩ := Option.bind_eq_some_iff.1 h
    obtain ⟨column, -, rfl⟩ := Option.map_eq_some_iff.1 h
    exact ne_of_stripSourceSuffix? hbase

variable {mapping : Mapping} {dataset : Dataset}

theorem within_remapPass : (remapPass mapping dataset).Within dataset.source.length := by
  intro path key v f hf
  obtain ⟨base, -, hf⟩ := Option.bind_eq_some_iff.1 hf
  obtain ⟨column, -, rfl⟩ := Option.map_eq_some_iff.1 hf
  simp [Dataset.cells]

theorem stripSourceSuffix?_encodeKey : stripSourceSuffix? encodeKey = none := by decide

theorem enter_encode (path : String) (x : Json) :
    (remapPass mapping dataset).enter path encodeKey x = remapAttributes mapping x := by
  cases x <;> rfl

theorem enter_of_ne_encode {key : String} (h : key ≠ encodeKey) (path : String) (x : Json) :
    (remapPass mapping dataset).enter path key x = x := by
  cases x with
  | obj ms => simp [Pass.enter, Pass.entered, Pass.entering, Place.owner?, remapPass, h]
  | _ => rfl

theorem follows_remapPass (mapping : Mapping) (dataset : Dataset) :
    (remapVisitor mapping dataset).Follows (remapPass mapping dataset) fun s _ => s where
  member s key ms path x hnodup hget _ := by
    refine Prod.ext rfl ?_
    show remapSource mapping dataset key path (remapEncode mapping key ms) =
      (remapPass mapping dataset).edit path key x ms
    -- An encoding is no source field: only what it holds is changed.
    by_cases hkey : key = encodeKey
    · subst hkey
      have hfill : (remapPass mapping dataset).filling? path encodeKey x = none := by
        simp [Pass.filling?, remapPass, stripSourceSuffix?_encodeKey]
      have hsettle : (remapPass mapping dataset).settle path encodeKey = none := by
        simp [remapPass, columnByPath?, stripSourceSuffix?_encodeKey]
      simp only [remapSource, stripSourceSuffix?_encodeKey, remapEncode, Pass.edit, Pass.rewrite,
        hfill, hsettle, enter_encode, Entries.modify_eq_insert hnodup hget]
      rfl
    · have hencode : remapEncode mapping key ms = ms := by simp [remapEncode, hkey]
      rw [hencode, remapSource, Pass.edit, Pass.rewrite, enter_of_ne_encode hkey]
      unfold Pass.filling? remapPass columnByPath?
      cases hbase : stripSourceSuffix? key with
      | none => simp [hbase, Entries.insert_eq_self hget]
      | some base =>
        cases hcolumn : get? mapping (memberPath path key) with
        | none => simp [hbase, hcolumn, Entries.insert_eq_self hget]
        | some column => simp [hbase, hcolumn, Dataset.arr_vector]
  element _ _ _ _ := rfl
  leaf _ _ _ _ := rfl

theorem remap_eq {spec : Json} (hspec : spec.Distinct) (mapping : Mapping) (dataset : Dataset) :
    remap spec mapping dataset = (remapPass mapping dataset).node (.here mappingRoot) spec := by
  rw [remap, walk_eq (follows_remapPass mapping dataset) within_remapPass () hspec mappingRoot
    (width_le_room spec dataset.source.length)]

/-- **Applying a mapping** is a pass over the specification, followed by the dimensions. -/
theorem appliedSpec_eq (text : String) (mapping : Mapping) (dataset : Dataset) :
    appliedSpec text mapping dataset =
      attachDataset ((remapPass mapping dataset).node (.here mappingRoot) (safeParse text))
        dataset := by
  rw [appliedSpec]
  cases hconf : isConfigured text with
  | true => rw [if_pos rfl, remap_eq (distinct_safeParse text)]
  | false => rw [if_neg Bool.false_ne_true, safeParse_of_not_configured hconf]; rfl

/-! ## New columns -/

theorem relabel_remapPass (pl : Place) (key : String) :
    (pl.owner?.bind fun owner => (remapPass mapping dataset).relabel owner key) =
      columnByName? mapping pl key := by
  unfold columnByName?
  cases pl.owner? <;> simp [remapPass]

theorem settled?_remapPass (mapping : Mapping) (dataset : Dataset) (pl : Place) (key : String)
    (v : Json) :
    (remapPass mapping dataset).settled? pl key v =
      if v.isArray ∧ columnByName? mapping pl key = none then none
      else newColumn? mapping pl key := by
  rw [Pass.settled?, relabel_remapPass, newColumn?]
  cases columnByName? mapping pl key with
  | none => cases v.isArray <;> simp [remapPass]
  | some s => cases hpath : columnByPath? mapping pl.path key <;> simp [remapPass, hpath]

theorem at?_attachDataset_cons {step : Step} (hstep : step ≠ .key "dataset") (a : List Step)
    (j : Json) (dataset : Dataset) :
    (attachDataset j dataset).at? (step :: a) = j.at? (step :: a) := by
  cases j with
  | obj ms =>
    cases step with
    | key k =>
      have hne : "dataset" ≠ k := fun h => hstep (by rw [← h])
      rw [attachDataset, Json.at?, Json.at?, Entries.get?_insert_of_ne hne]
    | index i => rfl
  | _ => rfl

theorem at?_attachDataset {a : List Step} {k : String}
    (houtside : (a ++ [Step.key k]).head? ≠ some (Step.key "dataset")) (j : Json) (dataset : Dataset) :
    (attachDataset j dataset).at? (a ++ [.key k]) = j.at? (a ++ [.key k]) := by
  cases h : a ++ [.key k] with
  | nil => simp at h
  | cons step b =>
    rw [h] at houtside
    exact at?_attachDataset_cons (fun hstep => houtside (congrArg some hstep)) b j dataset

/-- **Texts that stay**: after a mapping is applied, a text is where it was, outside of the data of
the root, exactly if no member on the way to it is filled by a sibling or given a column, its own
member is not filled, and the mapping has no other column for it. -/
theorem at?_appliedSpec_iff (text : String) (mapping : Mapping) (t : Table) (a : List Step)
    (key name : String) (houtside : (a ++ [Step.key key]).head? ≠ some (Step.key "dataset"))
    (hheld : (safeParse text).at? (a ++ [.key key]) = some (.str name)) :
    (appliedSpec text mapping t.dataset).at? (a ++ [.key key]) = some (.str name) ↔
      (remapPass mapping t.dataset).Keeps (.here mappingRoot) (safeParse text) a ∧
      (∃ ms, (safeParse text).at? a = some (.obj ms) ∧
        key ∉ keys ((remapPass mapping t.dataset).filled ((Place.here mappingRoot).along a) [] ms)) ∧
      ∀ column, newColumn? mapping ((Place.here mappingRoot).along a) key = some column →
        column = name := by
  rw [appliedSpec_eq, at?_attachDataset houtside, Json.at?_concat_key]
  obtain ⟨ms, hms, hget⟩ := Json.at?_concat_key.1 hheld
  have hsettled := settled?_remapPass mapping t.dataset ((Place.here mappingRoot).along a) key
    (.str name)
  rw [if_neg (by simp [Json.isArray])] at hsettled
  constructor
  · rintro ⟨xs, hat, hx⟩
    obtain ⟨hkeeps, ms', hms', rfl⟩ := Pass.keeps_of_at?_node hat
    obtain rfl : ms = ms' := by simpa [hms] using hms'
    rcases Pass.column_or_outcome hx with ⟨-, cells, hcells⟩ | ⟨hfilled, v, hv, hx⟩
    · cases hcells
    · obtain rfl : Json.str name = v := Option.some.inj (hget.symm.trans hv)
      refine ⟨hkeeps, ⟨ms, hms, hfilled⟩, fun column hcolumn => ?_⟩
      rw [Pass.outcome, hsettled, hcolumn] at hx
      exact (Json.str.inj hx).symm
  · rintro ⟨hkeeps, ⟨ms', hms', hfilled⟩, hcolumn⟩
    obtain rfl : ms = ms' := by simpa [hms] using hms'
    have hat := Pass.at?_node_of_keeps hkeeps hms
    rw [Pass.node] at hat
    refine ⟨_, hat, ?_⟩
    rw [Pass.get?_not_filled hfilled, hget, Option.map_some, Pass.outcome, hsettled]
    cases hnew : newColumn? mapping ((Place.here mappingRoot).along a) key with
    | none => rfl
    | some column => rw [hcolumn column hnew]

/-- Encodings that share an attribute, a source field that a sibling fills, one in an object that a
sibling fills, and one in an object that stands where a column is named. -/
def sharedChart : Json :=
  .obj [("series", .arr [.obj [("encode", .obj [("color", .str "Region")])],
      .obj [("encode", .obj [("color", .str "Missing"), ("y", .str "Sales")])]]),
    ("xSrcSrc", .str "Missing"), ("xSrc", .str "Region"),
    ("aSrc", .str "Missing"), ("a", .obj [("ySrc", .str "Region")]),
    ("bSrc", .obj [("zSrc", .str "Region")])]

/-- New columns for the missing references of `sharedChart`. -/
def sharedMapping : Mapping :=
  [("color", "Sales"), ("options.xSrcSrc", "Sales"), ("options.aSrc", "Sales"),
    ("options.bSrc", "Sales")]

theorem safeParse_sharedChart : safeParse sharedChart.compress = sharedChart := by
  have hdist : sharedChart.Distinct := by
    simp [sharedChart, DistinctMembers, DistinctItems, Json.Distinct]
  exact (safeParse_compress hdist).trans rfl

/-- An attribute stays beside one that gets a new column. -/
theorem attribute_stays :
    let a := [Step.key "series", .index 1, .key "encode"]
    (a ++ [Step.key "y"]).head? ≠ some (Step.key "dataset") ∧
      (safeParse sharedChart.compress).at? (a ++ [.key "y"]) = some (.str "Sales") ∧
      (appliedSpec sharedChart.compress sharedMapping regions.dataset).at? (a ++ [.key "y"]) =
        some (.str "Sales") := by
  intro a
  have houtside : (a ++ [Step.key "y"]).head? ≠ some (Step.key "dataset") := by decide
  have hheld : (safeParse sharedChart.compress).at? (a ++ [.key "y"]) = some (.str "Sales") := by
    rw [safeParse_sharedChart]
    rfl
  refine ⟨houtside, hheld, (at?_appliedSpec_iff _ sharedMapping regions a "y" "Sales" houtside
    hheld).2 ?_⟩
  rw [safeParse_sharedChart]
  refine ⟨⟨_, _, rfl, rfl, by decide, rfl, _, _, rfl, rfl, _, _, rfl, rfl, by decide, rfl, trivial⟩,
    ⟨_, rfl, by decide⟩, fun column h => ?_⟩
  cases h

/-- A mapping for missing references changes references that are not missing. -/
theorem resolved_references_change :
    (verify sharedChart.compress regions.names).map Unresolved.reference =
        Entries.keys sharedMapping ∧
      ∀ a ∈ [[Step.key "series", .index 0, .key "encode", .key "color"], [.key "xSrc"],
          [.key "a", .key "ySrc"], [.key "bSrc", .key "zSrc"]],
        (safeParse sharedChart.compress).at? a = some (.str "Region") ∧
        "Region" ∈ regions.names ∧
        (appliedSpec sharedChart.compress sharedMapping regions.dataset).at? a ≠
          some (.str "Region") := by
  rw [verify_eq, appliedSpec_eq, safeParse_sharedChart]
  refine ⟨rfl, fun a ha => ?_⟩
  simp only [List.mem_cons, List.not_mem_nil, or_false] at ha
  rcases ha with rfl | rfl | rfl | rfl
  all_goals
    exact ⟨rfl, by decide, fun h => absurd (congrArg (·.bind Json.text?) h) (by decide)⟩

end ChartTemplate
