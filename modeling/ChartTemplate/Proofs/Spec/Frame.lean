import ChartTemplate.Proofs.Spec.Remap
import ChartTemplate.Proofs.Walk.Frame

/-!
# What a mapping leaves alone

Applying a mapping changes a specification at the addresses of `Remapped` alone: at attributes and
source fields that the mapping names, at the siblings that these source fields fill, and at the dataset
of the root (`appliedSpec_frame`). What verification reports without any columns are all names that a
mapping can use: with other names it changes nothing but the dataset.
-/

namespace ChartTemplate

open Entries (keys get?)

variable {mapping : Mapping} {dataset : Dataset} {j v : Json} {a b : List Step}

/-! ## Named members -/

/-- The mapping names a member of the object at an address as the attribute of an encoding. -/
structure NamesAttribute (mapping : Mapping) (j : Json) (a : List Step) (key : String) : Prop where
  encoding : a.getLast? = some (.key encodeKey)
  member : ∃ ms, j.at? a = some (.obj ms) ∧ key ∈ keys ms
  named : key ∈ keys mapping

/-- The mapping names a source field of the object at an address by its path. The walk comes to it
unless it holds an array, in the place of which the mapping puts no text. -/
structure NamesSource (mapping : Mapping) (j : Json) (a : List Step) (key base : String) : Prop where
  source : stripSourceSuffix? key = some base
  member : ∃ ms v, j.at? a = some (.obj ms) ∧ get? ms key = some v ∧
    (v.isArray = true → NamesAttribute mapping j a key)
  named : memberPath ((Place.here mappingRoot).along a).path key ∈ keys mapping

/-- The addresses at which applying a mapping changes a specification. -/
inductive Remapped (mapping : Mapping) (j : Json) : List Step → Prop
  | attribute {a key} (h : NamesAttribute mapping j a key) : Remapped mapping j (a ++ [.key key])
  | source {a key base} (h : NamesSource mapping j a key base) : Remapped mapping j (a ++ [.key key])
  /-- The field that a source field fills. -/
  | sibling {a key base} (h : NamesSource mapping j a key base) :
    Remapped mapping j (a ++ [.key base])
  /-- The dataset of the root. -/
  | dataset {ms} (h : j = .obj ms) : Remapped mapping j [.key "dataset"]

theorem getLast?_of_owner? {path k : String} (h : ((Place.here path).along a).owner? = some k) :
    a.getLast? = some (.key k) := by
  rcases List.eq_nil_or_concat a with rfl | ⟨a, step, rfl⟩
  · cases h
  · rw [List.concat_eq_append, Place.along_append] at h
    rw [List.concat_eq_append, List.getLast?_concat]
    cases step with
    | key k' => rw [Option.some.inj h]
    | index i =>
      -- Items are no members.
      cases hpl : (Place.here path).along a <;>
        · rw [hpl] at h
          cases h

theorem namesAttribute_of_columnByName? {ms : Members} {key : String}
    (hat : j.at? a = some (.obj ms)) (hmem : key ∈ keys ms)
    (h : columnByName? mapping ((Place.here mappingRoot).along a) key ≠ none) :
    NamesAttribute mapping j a key := by
  rw [columnByName?] at h
  split_ifs at h with howner
  · have hnamed := Entries.get?_isSome_iff.1 (Option.isSome_iff_ne_none.2 h)
    exact ⟨getLast?_of_owner? howner, ⟨ms, hat, hmem⟩, hnamed⟩
  · exact absurd rfl h

theorem exists_base_of_columnByPath? {path key : String} (h : columnByPath? mapping path key ≠ none) :
    memberPath path key ∈ keys mapping ∧ ∃ base, stripSourceSuffix? key = some base := by
  rw [columnByPath?] at h
  split_ifs at h with hsource
  · have hnamed := Entries.get?_isSome_iff.1 (Option.isSome_iff_ne_none.2 h)
    exact ⟨hnamed, Option.isSome_iff_exists.1 hsource⟩
  · exact absurd rfl h

theorem exists_namesSource_of_filled (hj : j.Distinct) {ms : Members} {k : String}
    (hat : j.at? a = some (.obj ms))
    (h : k ∈ keys ((remapPass mapping dataset).filled ((Place.here mappingRoot).along a) [] ms)) :
    ∃ key, NamesSource mapping j a key k := by
  obtain ⟨f, hf, rfl⟩ := List.mem_map.1 h
  obtain ⟨⟨key, v⟩, hmem, taken, hfires⟩ := Pass.exists_fires_of_mem_filled hf
  obtain ⟨hentering, -, hfilling⟩ := Pass.fires?_eq_some hfires
  obtain ⟨-, cells, hfill, -⟩ := Pass.filling?_eq_some hfilling
  obtain ⟨base, hbase, hfill⟩ := Option.bind_eq_some_iff.1 hfill
  obtain ⟨column, hcolumn, hfill⟩ := Option.map_eq_some_iff.1 hfill
  have hbase : stripSourceSuffix? key = some f.1 := by
    rw [hbase, show base = f.1 from congrArg Prod.fst hfill]
  have hnamed := Entries.mem_keys_of_mem (Entries.mem_of_get? hcolumn)
  have hget : get? ms key = some v :=
    Entries.get?_of_mem (distinct_obj.1 (hj.at? hat)).1 hmem
  refine ⟨key, hbase, ⟨ms, v, hat, hget, fun hv => ?_⟩, hnamed⟩
  -- An array is visited only if a text takes its place before.
  refine namesAttribute_of_columnByName? hat (Entries.mem_keys_of_mem hmem) fun hname => ?_
  rw [Pass.entering_of_relabel_none ((relabel_remapPass _ key).trans hname), hv] at hentering
  cases hentering

/-- **What a mapping touches** are members that it names, and the siblings that they fill. -/
theorem named_of_touches (hj : j.Distinct)
    (h : (remapPass mapping dataset).Touches (.here mappingRoot) j b) :
    (∃ a key, NamesAttribute mapping j a key ∧ b = a ++ [.key key]) ∨
      ∃ a key base, NamesSource mapping j a key base ∧
        (b = a ++ [.key key] ∨ b = a ++ [.key base]) := by
  cases h with
  | @settled a ms k v hat hget h =>
    rw [settled?_remapPass] at h
    by_cases hname : columnByName? mapping ((Place.here mappingRoot).along a) k = none
    · -- The column stands under the path, and the walk comes to the member.
      right
      have harr : ¬v.isArray = true := fun harr => h (if_pos ⟨harr, hname⟩)
      rw [if_neg fun hcond => harr hcond.1, newColumn?, hname, Option.or_none] at h
      obtain ⟨hnamed, base, hbase⟩ := exists_base_of_columnByPath? h
      exact ⟨a, k, base, ⟨hbase, ⟨ms, v, hat, hget, fun hv => absurd hv harr⟩, hnamed⟩, .inl rfl⟩
    · left
      have hmem := Entries.mem_keys_of_mem (Entries.mem_of_get? hget)
      exact ⟨a, k, namesAttribute_of_columnByName? hat hmem hname, rfl⟩
  | @filled a ms k hat h =>
    obtain ⟨key, hnames⟩ := exists_namesSource_of_filled hj hat h
    exact .inr ⟨a, key, k, hnames, .inr rfl⟩

theorem remapped_of_touches (hj : j.Distinct)
    (h : (remapPass mapping dataset).Touches (.here mappingRoot) j b) : Remapped mapping j b := by
  rcases named_of_touches hj h with ⟨a, key, hnames, rfl⟩ | ⟨a, key, base, hnames, rfl | rfl⟩
  · exact .attribute hnames
  · exact .source hnames
  · exact .sibling hnames

/-! ## Addresses that stay -/

variable {key : String}

theorem Remapped.exists_members (h : Remapped mapping j b) :
    ∃ a key ms, b = a ++ [.key key] ∧ j.at? a = some (.obj ms) := by
  rcases h with ⟨-, ⟨ms, hat, -⟩, -⟩ | ⟨-, ⟨ms, -, hat, -⟩, -⟩ | ⟨-, ⟨ms, -, hat, -⟩, -⟩ | h
  · exact ⟨_, _, ms, rfl, hat⟩
  · exact ⟨_, _, ms, rfl, hat⟩
  · exact ⟨_, _, ms, rfl, hat⟩
  · exact ⟨[], "dataset", _, rfl, congrArg some h⟩

/-- A member of an object is not changed if the mapping names neither it nor a source field that fills
it. -/
theorem not_remapped_member {ms : Members} (hat : j.at? a = some (.obj ms))
    (hattribute : a.getLast? = some (.key encodeKey) → key ∉ keys mapping)
    (hsource : ∀ k ∈ keys ms, ∀ base, stripSourceSuffix? k = some base → key = k ∨ key = base →
      memberPath ((Place.here mappingRoot).along a).path k ∉ keys mapping)
    (hdataset : a ++ [.key key] ≠ [.key "dataset"]) : ¬Remapped mapping j (a ++ [.key key]) := by
  have hunnamed {k base : String} (h : NamesSource mapping j a k base) : ¬(key = k ∨ key = base) := by
    intro hkey
    obtain ⟨ms', v, hms, hget, -⟩ := h.member
    obtain rfl : ms = ms' := by simpa [hat] using hms
    exact hsource k (Entries.mem_keys_of_mem (Entries.mem_of_get? hget)) base h.source hkey h.named
  intro h
  generalize hb : a ++ [Step.key key] = b at h
  rcases h with h | h | h | -
  · obtain ⟨rfl, hkey⟩ := List.append_inj' hb rfl
    obtain rfl : key = _ := by simpa using hkey
    exact hattribute h.encoding h.named
  · obtain ⟨rfl, hkey⟩ := List.append_inj' hb rfl
    exact hunnamed h (.inl (by simpa using hkey))
  · obtain ⟨rfl, hkey⟩ := List.append_inj' hb rfl
    exact hunnamed h (.inr (by simpa using hkey))
  · exact hdataset hb

theorem not_remapped_nil : ¬Remapped mapping j [] := by
  intro h
  obtain ⟨_, _, _, hb, -⟩ := h.exists_members
  exact List.append_ne_nil_of_right_ne_nil _ (List.cons_ne_nil _ _) hb.symm

theorem not_remapped_item {i : Nat} : ¬Remapped mapping j (a ++ [.index i]) := by
  intro h
  obtain ⟨_, _, _, hb, -⟩ := h.exists_members
  cases (List.append_inj' hb rfl).2

/-- Nothing is changed under a text. -/
theorem not_remapped_under_text {s : String} (hat : j.at? a = some (.str s))
    (h : ¬Remapped mapping j a) (b : List Step) : ¬Remapped mapping j (a ++ b) := by
  rcases List.eq_nil_or_concat b with rfl | ⟨b, step, rfl⟩
  · rwa [List.append_nil]
  · intro hb
    obtain ⟨a', key, ms, heq, hms⟩ := hb.exists_members
    rw [List.concat_eq_append, ← List.append_assoc] at heq
    obtain ⟨rfl, -⟩ := List.append_inj' heq rfl
    rw [Json.at?_append, hat, Option.bind_some] at hms
    rcases b with - | ⟨_ | _, _⟩ <;> cases hms

/-! ## Names that verification reports -/

variable {text base : String}

theorem exists_reference_of_namesAttribute (h : NamesAttribute mapping (safeParse text) a key) :
    ∃ u ∈ verify text [], u.reference ∈ keys mapping := by
  obtain ⟨hlast, ⟨es, hat, hmem⟩, hnamed⟩ := h
  obtain ⟨a, rfl⟩ := List.getLast?_eq_some_iff.1 hlast
  obtain ⟨ms, hms, hget⟩ := Json.at?_concat_key.1 hat
  have hvisit : ⟨((Place.here mappingRoot).along a).path, encodeKey, .obj es⟩ ∈
      Pass.idle.visits (.here mappingRoot) (safeParse text) := Pass.visit_of_address hms hget rfl
  obtain ⟨⟨_, v⟩, hv, rfl⟩ := List.mem_map.1 hmem
  have hfree : ¬namesColumn [] v = true := by simp [namesColumn_iff]
  obtain ⟨u, hu, rfl⟩ :=
    exists_unresolved_attribute hv hfree ((Place.here mappingRoot).along a).path
  rw [verify_eq]
  exact ⟨u, List.mem_flatMap.2 ⟨_, hvisit, hu⟩, hnamed⟩

theorem exists_reference_of_namesSource (h : NamesSource mapping (safeParse text) a key base) :
    ∃ u ∈ verify text [], u.reference ∈ keys mapping := by
  obtain ⟨hsource, ⟨ms, v, hat, hget, harr⟩, hnamed⟩ := h
  cases hv : v.isArray with
  | true => exact exists_reference_of_namesAttribute (harr hv)
  | false =>
    have hvisit : ⟨((Place.here mappingRoot).along a).path, key, v⟩ ∈
        Pass.idle.visits (.here mappingRoot) (safeParse text) := Pass.visit_of_address hat hget hv
    have hkey : (stripSourceSuffix? key).isSome = true := by rw [hsource]; rfl
    have hfree : ¬namesColumn [] v = true := by simp [namesColumn_iff]
    obtain ⟨u, hu, href⟩ :=
      exists_unresolved_source hkey hfree ((Place.here mappingRoot).along a).path
    rw [verify_eq]
    exact ⟨u, List.mem_flatMap.2 ⟨_, hvisit, hu⟩, href ▸ hnamed⟩

/-! ## The frame -/

theorem at?_remapped (dataset : Dataset) (hj : j.Distinct) (hat : j.at? a = some v)
    (hfree : ∀ b, b <+: a → ¬Remapped mapping j b) :
    ∃ v', ((remapPass mapping dataset).node (.here mappingRoot) j).at? a = some v' ∧
      v'.Extends (fun k => Remapped mapping j (a ++ [.key k])) v ∧
      ((∀ b, ¬Remapped mapping j (a ++ b)) → v' = v) := by
  have hwithin {b : List Step}
      (h : (remapPass mapping dataset).Touches ((Place.here mappingRoot).along a) v b) :
      Remapped mapping j (a ++ b) := remapped_of_touches hj (h.within hat)
  have hkeeps : (remapPass mapping dataset).Keeps (.here mappingRoot) j a :=
    Pass.keeps_of_not_touches hat fun b hb h => hfree b hb (remapped_of_touches hj h)
  refine ⟨_, Pass.at?_node_of_keeps hkeeps hat, ?_, ?_⟩
  · exact (Pass.extends_node _ v).mono fun k h => hwithin h
  · intro h
    exact Pass.node_eq_of_not_touches _ v (hj.at? hat) fun b hb => h b (hwithin hb)

theorem extends_attachDataset {x : Json} {new : String → Prop} (h : x.Extends new v)
    (hdataset : ∀ ms, v = .obj ms → new "dataset") (dataset : Dataset) :
    (attachDataset x dataset).Extends new v := by
  cases v with
  | obj ms =>
    obtain ⟨xs, added, rfl, hkeys, hadded⟩ := h
    by_cases hmem : "dataset" ∈ keys xs
    · exact ⟨_, added, rfl, (Entries.keys_insert_of_mem hmem _).trans hkeys, hadded⟩
    · refine ⟨_, added ++ ["dataset"], rfl, ?_, ?_⟩
      · rw [Entries.keys_insert_of_not_mem hmem, hkeys, List.append_assoc]
      · intro k hk
        rcases List.mem_append.1 hk with hk | hk
        · exact hadded k hk
        · rw [List.mem_singleton.1 hk]
          exact hdataset ms rfl
  | arr js =>
    obtain ⟨js', rfl, hlen⟩ := h
    exact ⟨js', rfl, hlen⟩
  | _ =>
    obtain rfl := h
    rfl

theorem not_touches_of_names (hnames : ∀ u ∈ verify text [], u.reference ∉ keys mapping)
    (b : List Step) : ¬(remapPass mapping dataset).Touches (.here mappingRoot) (safeParse text) b := by
  intro htouch
  rcases named_of_touches (distinct_safeParse text) htouch with ⟨_, _, h, -⟩ | ⟨_, _, _, h, -⟩
  · obtain ⟨u, hu, hnamed⟩ := exists_reference_of_namesAttribute h
    exact hnames u hu hnamed
  · obtain ⟨u, hu, hnamed⟩ := exists_reference_of_namesSource h
    exact hnames u hu hnamed

/-- **The frame of a mapping**: an address of the specification that is not at or under a changed one
is there after the mapping is applied. What is there has the shape of what was there, with new members
at changed addresses alone, and is the same if no changed address is under it. A mapping without names
that verification reports when there are no columns changes nothing but the dataset of an object. -/
theorem appliedSpec_frame (text : String) (mapping : Mapping) (dataset : Dataset) :
    (∀ a v, (safeParse text).at? a = some v →
      (∀ b, b <+: a → ¬Remapped mapping (safeParse text) b) →
      ∃ v', (appliedSpec text mapping dataset).at? a = some v' ∧
        v'.Extends (fun k => Remapped mapping (safeParse text) (a ++ [.key k])) v ∧
        ((∀ b, ¬Remapped mapping (safeParse text) (a ++ b)) → v' = v)) ∧
      ((∀ u ∈ verify text [], u.reference ∉ keys mapping) →
        appliedSpec text mapping dataset = attachDataset (safeParse text) dataset) := by
  rw [appliedSpec_eq]
  have hdist := distinct_safeParse text
  constructor
  · intro a v hat hfree
    obtain ⟨v', hat', hshape, hsame⟩ := at?_remapped dataset hdist hat hfree
    cases a with
    | nil =>
      -- The root is changed once more.
      obtain rfl := Option.some.inj hat
      obtain rfl := Option.some.inj hat'
      refine ⟨_, rfl, extends_attachDataset hshape (fun ms h => .dataset h) dataset, fun h => ?_⟩
      rw [hsame h]
      cases hspec : safeParse text with
      | obj ms => exact absurd (Remapped.dataset hspec) (h [.key "dataset"])
      | _ => rfl
    | cons step a =>
      have hstep : step ≠ .key "dataset" := by
        rintro rfl
        cases hspec : safeParse text with
        | obj ms => exact hfree [.key "dataset"] (List.prefix_append _ a) (.dataset hspec)
        | _ => rw [hspec] at hat; cases hat
      exact ⟨v', (at?_attachDataset_cons hstep a _ dataset).trans hat', hshape, hsame⟩
  · intro hnames
    rw [Pass.node_eq_of_not_touches _ _ hdist (not_touches_of_names hnames)]

/-- In a chart with shared references an attribute that the mapping does not name stays, and names
without references change nothing. -/
theorem appliedSpec_frame_sharedChart :
    let a := [Step.key "series", .index 1, .key "encode", .key "y"]
    (appliedSpec sharedChart.compress sharedMapping regions.dataset).at? a = some (.str "Sales") ∧
      appliedSpec sharedChart.compress [("Color", "Sales")] regions.dataset =
        attachDataset sharedChart regions.dataset := by
  intro a
  have hread := safeParse_sharedChart
  have hat : (safeParse sharedChart.compress).at? a = some (.str "Sales") := by
    rw [hread]
    rfl
  have hfree : ∀ b, b <+: a → ¬Remapped sharedMapping (safeParse sharedChart.compress) b := by
    intro b hb
    rw [hread]
    simp only [a, List.prefix_cons_iff, List.prefix_nil] at hb
    rcases hb with rfl | ⟨_, rfl, rfl | ⟨_, rfl, rfl | ⟨_, rfl, rfl | ⟨_, rfl, rfl⟩⟩⟩⟩
    · exact not_remapped_nil
    · exact not_remapped_member (a := []) rfl (by decide) (by decide) (by decide)
    · exact not_remapped_item (a := [.key "series"])
    · exact not_remapped_member (a := [.key "series", .index 1]) rfl (by decide) (by decide)
        (by decide)
    · exact not_remapped_member (a := [.key "series", .index 1, .key "encode"]) rfl (by decide)
        (by decide) (by decide)
  have hunnamed : ∀ u ∈ verify sharedChart.compress [], u.reference ∉ keys [("Color", "Sales")] := by
    rw [verify_eq, hread]
    decide
  constructor
  · obtain ⟨hkept, -⟩ := appliedSpec_frame sharedChart.compress sharedMapping regions.dataset
    obtain ⟨v, hv, -, hsame⟩ := hkept a (.str "Sales") hat hfree
    rw [hv, hsame (not_remapped_under_text hat (hfree a List.prefix_rfl))]
  · rw [(appliedSpec_frame sharedChart.compress [("Color", "Sales")] regions.dataset).2 hunnamed,
      hread]

end ChartTemplate
