import ChartTemplate.Proofs.Json.Quoted
import ChartTemplate.Proofs.Json.Reread
import ChartTemplate.Proofs.Spec.Closure
import ChartTemplate.Proofs.Spec.Frame

/-!
# Applied specifications are read again

The text of an applied specification is read again, up to its numbers, with one exception: a source
field that gets a column fills its sibling with an array, which can be nested one deeper than the reader
allows. `chartColumns_applyMapping_iff` : the columns of an applied specification are the dimensions
that were attached to it exactly if no source field with a column stands in an object that is nested as
deep as the reader allows.

Numbers do not matter, since those that are read, and those of a dataset, are in range. Containers after
a pass are where containers were, or columns (`Pass.of_at?_node`), so the pass adds at most one to the
depth.
-/

namespace ChartTemplate

open Entries (keys get? insertAll)

/-! ## Numbers in range -/

theorem inRange_ofFloat (x : Float) : (Json.ofFloat x).InRange := by
  unfold Json.ofFloat
  split
  · rename_i hsmall
    rw [Bool.and_eq_true, decide_eq_true_iff] at hsmall
    have hwhole := whole_lt_of_abs_lt hsmall.1 hsmall.2
    show (truncInt x).natAbs ≤ Json.Read.maxSignificand
    rw [truncInt, if_pos (isFinite_of_fract hsmall.1), Json.Read.maxSignificand]
    dsimp only
    split <;> omega
  · split
    · assumption
    · trivial

theorem inRange_cell (cell : Cell) : cell.toJson.InRange := by
  cases cell with
  | number x => exact inRange_ofFloat x
  | _ => trivial

theorem inRange_columnJson (cells : List Cell) : (columnJson cells).InRange := by
  refine inRangeItems_iff.2 fun j hj => ?_
  obtain ⟨cell, -, rfl⟩ := List.mem_map.1 hj
  exact inRange_cell cell

namespace Pass

mutual

theorem inRange_node (p : Pass) (pl : Place) (j : Json) (hj : j.InRange) : (p.node pl j).InRange := by
  cases j with
  | arr js => exact inRange_items p pl 0 js hj
  | obj ms =>
    refine inRangeMembers_insertAll (inRange_members p pl ms hj) (inRangeMembers_iff.2 fun f hf => ?_)
    obtain ⟨cells, hcells⟩ := exists_column_of_mem_filled hf
    rw [hcells]
    exact inRange_columnJson cells
  | _ => exact hj

theorem inRange_members (p : Pass) (pl : Place) (ms : List (String × Json)) (hms : InRangeMembers ms) :
    InRangeMembers (p.members pl ms) := by
  match ms with
  | [] => trivial
  | (k, v) :: ms =>
    rw [members]
    refine ⟨?_, inRange_members p pl ms hms.2⟩
    cases p.settled? pl k v with
    | some s => trivial
    | none => exact inRange_node p (.member pl.path k) v hms.1

theorem inRange_items (p : Pass) (pl : Place) (i : Nat) (js : List Json) (hjs : InRangeItems js) :
    InRangeItems (p.items pl i js) := by
  match js with
  | [] => trivial
  | j :: js => exact ⟨inRange_node p (pl.nth i) j hjs.1, inRange_items p pl (i + 1) js hjs.2⟩

end

end Pass

theorem inRange_attachDataset {j : Json} (hj : j.InRange) (d : Dataset) : (attachDataset j d).InRange := by
  cases j with
  | obj ms =>
    have hnames : InRangeItems (d.dimensions.map Json.str) := by
      refine inRangeItems_iff.2 fun x hx => ?_
      obtain ⟨name, -, rfl⟩ := List.mem_map.1 hx
      trivial
    have hdims : InRangeMembers [("dataset", dimensionsJson d)] := ⟨⟨hnames, trivial⟩, trivial⟩
    exact inRangeMembers_insertAll hj hdims
  | _ => exact hj

theorem inRange_appliedSpec (text : String) (mapping : Mapping) (d : Dataset) :
    (appliedSpec text mapping d).InRange := by
  rw [appliedSpec_eq]
  exact inRange_attachDataset (Pass.inRange_node _ _ _ (inRange_safeParse text)) d

/-! ## Containers after a pass -/

namespace Pass

variable {p : Pass}

theorem eq_nil_of_at?_columnJson {cells : List Cell} {a : List Step} {x : Json}
    (hat : (columnJson cells).at? a = some x) (hx : x.isComposite = true) : a = [] := by
  rcases at?_arr_eq_some_iff.1 hat with ⟨rfl, -⟩ | ⟨i, v, b, rfl, hv, hb⟩
  · rfl
  · obtain ⟨cell, -, rfl⟩ := List.mem_map.1 (List.mem_of_getElem? hv)
    have hwithin := holdsWithin_scalar (isComposite_cell cell) 0
    exact absurd (hwithin b x hb hx) (Nat.not_lt_zero _)

/-- **Containers after a pass** are where containers were, or they are columns that fill members. -/
theorem of_at?_node {pl : Place} {j x : Json} {a : List Step} (hat : (p.node pl j).at? a = some x)
    (hx : x.isComposite = true) :
    (∃ v, j.at? a = some v ∧ v.isComposite = true) ∨
      ∃ b k ms, a = b ++ [.key k] ∧ p.Keeps pl j b ∧ j.at? b = some (.obj ms) ∧
        k ∈ keys (p.filled (pl.along b) [] ms) := by
  induction a generalizing pl j with
  | nil =>
    refine .inl ⟨j, rfl, ?_⟩
    rw [← Option.some.inj hat] at hx
    cases hj : j.isComposite with
    | true => rfl
    | false => rwa [node_scalar hj, hj] at hx
  | cons step a ih =>
    cases step with
    | key k =>
      cases hj : p.node pl j with
      | obj xs =>
        obtain ⟨ms, rfl, rfl⟩ := node_eq_obj hj
        rw [hj, Json.at?] at hat
        obtain ⟨w, hw, hat⟩ := Option.bind_eq_some_iff.1 hat
        rcases column_or_outcome hw with ⟨hfilled, cells, rfl⟩ | ⟨hfilled, v, hv, rfl⟩
        · rw [eq_nil_of_at?_columnJson hat hx]
          exact .inr ⟨[], k, ms, rfl, trivial, rfl, hfilled⟩
        · cases hsettled : p.settled? pl k v with
          | some s =>
            rw [outcome_of_settled hsettled] at hat
            exact absurd (holdsWithin_scalar rfl 0 a x hat hx) (Nat.not_lt_zero _)
          | none =>
            rw [outcome_of_not_settled hsettled] at hat
            rcases ih hat with ⟨u, hu, hcomposite⟩ | ⟨b, k', ms', rfl, hkeeps, hb, hk'⟩
            · exact .inl ⟨u, by rw [Json.at?, hv]; exact hu, hcomposite⟩
            · exact .inr ⟨.key k :: b, k', ms', rfl, ⟨ms, v, rfl, hv, hfilled, hsettled, hkeeps⟩,
                by rw [Json.at?, hv]; exact hb, hk'⟩
      | _ => rw [hj] at hat; cases hat
    | index i =>
      obtain ⟨js, v, rfl, hv, hat⟩ := of_at?_node_index hat
      rcases ih hat with ⟨u, hu, hcomposite⟩ | ⟨b, k, ms, rfl, hkeeps, hb, hk⟩
      · exact .inl ⟨u, by rw [Json.at?, hv]; exact hu, hcomposite⟩
      · exact .inr ⟨.index i :: b, k, ms, rfl, ⟨js, v, rfl, hv, hkeeps⟩, by rw [Json.at?, hv]; exact hb, hk⟩

end Pass

/-! ## Source fields of the deepest objects -/

section

variable {mapping : Mapping} {dataset : Dataset} {spec : Json} {a : List Step} {key base : String}
  {ms : Members}

/-- A mapping has a column for a source field of an object that is nested as deep as the reader allows,
is outside of the data of the root and stays in the specification. -/
def FillsDeepest (mapping : Mapping) (dataset : Dataset) (spec : Json) : Prop :=
  ∃ a key base, a.length + 1 = Json.maxDepth ∧ a.head? ≠ some (Step.key "dataset") ∧
    (remapPass mapping dataset).Keeps (.here mappingRoot) spec a ∧ NamesSource mapping spec a key base

theorem owner?_of_getLast? {path k : String} (h : a.getLast? = some (.key k)) :
    ((Place.here path).along a).owner? = some k := by
  obtain ⟨b, rfl⟩ := List.getLast?_eq_some_iff.1 h
  rw [Place.along_append]
  rfl

theorem filled_ne_nil (dataset : Dataset) (hat : spec.at? a = some (.obj ms))
    (h : NamesSource mapping spec a key base) :
    (remapPass mapping dataset).filled ((Place.here mappingRoot).along a) [] ms ≠ [] := by
  obtain ⟨ms', v, hat', hget, harray⟩ := h.member
  obtain rfl : ms = ms' := by simpa [hat] using hat'
  intro hnil
  have hfires := Pass.filled_eq_nil_iff.1 hnil (key, v) (Entries.mem_of_get? hget)
  rcases fires?_remapPass.1 hfires with hentering | hnot
  · -- an array stays only if it is no attribute that the mapping names
    obtain ⟨js, rfl, -, hsettled⟩ := Pass.of_entering_isArray hentering
    obtain ⟨hlast, -, hnamed⟩ := harray rfl
    have hcolumn := (columns_of_not_settled hsettled).1
    rw [columnByName?, if_pos (owner?_of_getLast? hlast), Entries.get?_eq_none_iff] at hcolumn
    exact hcolumn hnamed
  · exact hnot ⟨by rw [h.source]; rfl, h.named⟩

theorem head?_append_of_length {b : List Step} (h : a.length + 1 = Json.maxDepth) :
    (a ++ b).head? = a.head? := by
  cases a with
  | nil => cases h
  | cons step a => rfl

theorem holdsWithin_dimensionsJson (d : Dataset) : (dimensionsJson d).HoldsWithin 2 := by
  refine (holdsWithin_obj_iff (by simp)).2 fun m hm => ?_
  obtain rfl := List.mem_singleton.1 hm
  refine holdsWithin_arr_iff.2 fun j hj => ?_
  obtain ⟨name, -, rfl⟩ := List.mem_map.1 hj
  exact holdsWithin_scalar rfl 0

/-- **The depth of an applied specification** is what the reader allows, unless a sibling of a source
field is filled in the deepest object. -/
theorem holdsWithin_attachDataset_iff (hspec : spec.Distinct) (hdepth : spec.depth ≤ Json.maxDepth)
    (hobject : ∃ ms, spec = .obj ms) :
    (attachDataset ((remapPass mapping dataset).node (.here mappingRoot) spec) dataset).HoldsWithin
        Json.maxDepth ↔
      ¬FillsDeepest mapping dataset spec := by
  constructor
  · rintro hwithin ⟨a, key, base, hlength, hhead, hkeeps, hnames⟩
    obtain ⟨ms, -, hat, -⟩ := hnames.member
    obtain ⟨f, hf⟩ := List.exists_mem_of_ne_nil _ (filled_ne_nil dataset hat hnames)
    obtain ⟨cells, hcells⟩ := Pass.get?_filled
      ((remapPass mapping dataset).members ((Place.here mappingRoot).along a) ms)
      (List.mem_map.2 ⟨f, hf, rfl⟩)
    have hnode := Pass.at?_node_of_keeps hkeeps hat
    rw [Pass.node] at hnode
    have hcolumn := Json.at?_concat_key.2 ⟨_, hnode, hcells⟩
    rw [← at?_attachDataset (by rwa [head?_append_of_length hlength]) _ dataset] at hcolumn
    have hlt := hwithin _ _ hcolumn rfl
    rw [List.length_append, List.length_singleton] at hlt
    omega
  · intro hfree a c hat hc
    have hholds := (depth_le_iff hspec).1 hdepth
    obtain ⟨ms, rfl⟩ := hobject
    by_cases hhead : a.head? = some (Step.key "dataset")
    · -- whatever the data of the root were, they are replaced by the dimensions
      obtain ⟨b, rfl⟩ : ∃ b, a = .key "dataset" :: b := by
        cases a with
        | nil => cases hhead
        | cons step b => exact ⟨b, by rw [Option.some.inj hhead]⟩
      rw [Pass.node, attachDataset, Json.at?, Entries.get?_insert_self] at hat
      have hlt := holdsWithin_dimensionsJson dataset b c hat hc
      rw [List.length_cons, Json.maxDepth]
      omega
    · cases a with
      | nil => decide
      | cons step b =>
        rw [at?_attachDataset_cons fun hstep => hhead (congrArg some hstep)] at hat
        rcases Pass.of_at?_node hat hc with ⟨v, hv, hcomposite⟩ | ⟨b', k, ms', heq, hkeeps, hat', hk⟩
        · exact hholds _ v hv hcomposite
        · have hlt := hholds _ _ hat' rfl
          rw [heq] at hhead ⊢
          rw [List.length_append, List.length_singleton]
          refine lt_of_le_of_ne hlt fun hlength => hfree ?_
          obtain ⟨key, hnames⟩ := exists_namesSource_of_filled hspec hat' hk
          exact ⟨b', key, k, hlength, by rwa [head?_append_of_length hlength] at hhead, hkeeps, hnames⟩

end

/-! ## Columns -/

theorem isEmpty_compress (j : Json) : j.compress.isEmpty = false := by
  obtain ⟨c, cs, hcs, -⟩ := Json.Read.begins_chars j
  rw [Json.compress, hcs]
  simp

theorem chartColumns_of_get? {text : String} (htext : text.isEmpty = false) (d : Dataset)
    (h : (safeParse text).get? "dataset" = some (dimensionsJson d)) : chartColumns text = d.dimensions := by
  have hnames : (d.dimensions.map Json.str).filterMap dimensionName? = d.dimensions := by
    rw [List.filterMap_map]
    exact List.filterMap_some
  rw [chartColumns, htext, if_neg Bool.false_ne_true, h]
  exact hnames

theorem chartColumns_of_get?_eq_none {text : String} (h : (safeParse text).get? "dataset" = none) :
    chartColumns text = [] := by
  rw [chartColumns, h]
  split <;> rfl

theorem get?_dataset_reread (depth : Nat) {ms : Members} {j : Json} {d : Dataset}
    (h : (attachDataset (.obj ms) d).reread? (depth + 3) = some j) :
    j.get? "dataset" = some (dimensionsJson d) := by
  obtain ⟨ms', hms, rfl⟩ := Option.map_eq_some_iff.1 h
  have hdims : (dimensionsJson d).reread? (depth + 2) = some (dimensionsJson d) := by
    have hmembers : rereadMembers? [("dimensions", textsJson d.dimensions)] (depth + 1) =
        some [("dimensions", textsJson d.dimensions)] := by
      rw [rereadMembers?, reread?_textsJson]
      rfl
    show (rereadMembers? [("dimensions", textsJson d.dimensions)] (depth + 1)).map Json.obj = _
    rw [hmembers]
    rfl
  rw [Json.get?, get?_rereadMembers? hms, Entries.get?_insert_self, Option.bind_some, hdims]

section

variable (text : String) (mapping : Mapping) (dataset : Dataset)

theorem distinct_appliedSpec : (appliedSpec text mapping dataset).Distinct := by
  rw [appliedSpec_eq]
  exact distinct_attachDataset (Pass.distinct_node _ _ _ (distinct_safeParse text)) dataset

theorem safeParse_applyMapping : safeParse (applyMapping text mapping dataset) =
    ((appliedSpec text mapping dataset).reread? Json.maxDepth).getD emptyChart :=
  safeParse_compress (distinct_appliedSpec text mapping dataset)

variable {text}

/-- **The text of an applied specification** is read exactly if no source field with a column stands in
an object that is nested as deep as the reader allows. -/
theorem isSome_reread?_appliedSpec_iff (hobject : ∃ ms, safeParse text = .obj ms) :
    ((appliedSpec text mapping dataset).reread? Json.maxDepth).isSome = true ↔
      ¬FillsDeepest mapping dataset (safeParse text) := by
  rw [isSome_reread?_iff _ (inRange_appliedSpec text mapping dataset),
    depth_le_iff (distinct_appliedSpec text mapping dataset), appliedSpec_eq]
  exact holdsWithin_attachDataset_iff (distinct_safeParse text) (depth_safeParse_le text) hobject

theorem get?_dataset_safeParse (hobject : ∃ ms, safeParse text = .obj ms)
    (hfree : ¬FillsDeepest mapping dataset (safeParse text)) :
    (safeParse (applyMapping text mapping dataset)).get? "dataset" = some (dimensionsJson dataset) := by
  obtain ⟨j, hj⟩ := Option.isSome_iff_exists.1
    ((isSome_reread?_appliedSpec_iff mapping dataset hobject).2 hfree)
  rw [safeParse_applyMapping, hj]
  obtain ⟨ms, hms⟩ := hobject
  rw [appliedSpec_eq, hms, Pass.node] at hj
  exact get?_dataset_reread 124 hj

theorem safeParse_applyMapping_eq_emptyChart (hobject : ∃ ms, safeParse text = .obj ms)
    (hdeepest : FillsDeepest mapping dataset (safeParse text)) :
    safeParse (applyMapping text mapping dataset) = emptyChart := by
  have hnone : ¬((appliedSpec text mapping dataset).reread? Json.maxDepth).isSome = true := fun hsome =>
    (isSome_reread?_appliedSpec_iff mapping dataset hobject).1 hsome hdeepest
  rw [safeParse_applyMapping, Option.not_isSome_iff_eq_none.1 hnone]
  rfl

end

/-- **The columns of an applied specification** are the dimensions that were attached exactly if there
are none, or no source field with a column stands in an object that is nested as deep as the reader
allows. -/
theorem chartColumns_applyMapping_iff (text : String) (mapping : Mapping) (dataset : Dataset)
    (hobject : ∃ ms, safeParse text = .obj ms) :
    chartColumns (applyMapping text mapping dataset) = dataset.dimensions ↔
      dataset.dimensions = [] ∨ ¬FillsDeepest mapping dataset (safeParse text) := by
  by_cases hdeepest : FillsDeepest mapping dataset (safeParse text)
  · have hread := safeParse_applyMapping_eq_emptyChart mapping dataset hobject hdeepest
    rw [chartColumns_of_get?_eq_none (by rw [hread]; rfl), eq_comm]
    exact ⟨.inl, fun h => h.resolve_right (not_not_intro hdeepest)⟩
  · exact iff_of_true (chartColumns_of_get? (isEmpty_compress _) dataset
      (get?_dataset_safeParse mapping dataset hobject hdeepest)) (.inr hdeepest)

/-- A source field below so many objects. -/
def deepChart : Nat → Json
  | 0 => .obj [("xSrc", .str "Region")]
  | n + 1 => .obj [("a", deepChart n)]

/-- The address of the object that has the source field. -/
def deepAddress (n : Nat) : List Step :=
  List.replicate n (.key "a")

/-- A new column for the source field. -/
def deepMapping (n : Nat) : Mapping :=
  [(memberPath ((Place.here mappingRoot).along (deepAddress n)).path "xSrc", "Sales")]

theorem distinct_deepChart (n : Nat) : (deepChart n).Distinct := by
  induction n with
  | zero => simp [deepChart, DistinctMembers, Json.Distinct]
  | succ n ih => simp [deepChart, DistinctMembers, ih]

theorem depth_deepChart (n : Nat) : (deepChart n).depth = n + 1 := by
  induction n with
  | zero => rfl
  | succ n ih => rw [deepChart, Json.depth, depthMembers, depthMembers, ih, Nat.max_zero]

theorem reread?_deepChart {n d : Nat} (h : n < d) : (deepChart n).reread? d = some (deepChart n) := by
  induction n generalizing d with
  | zero =>
    obtain ⟨d, rfl⟩ := Nat.exists_eq_add_one_of_ne_zero h.ne'
    rfl
  | succ n ih =>
    obtain ⟨d, rfl⟩ := Nat.exists_eq_add_one_of_ne_zero (Nat.ne_zero_of_lt h)
    rw [deepChart, Json.reread?, rereadMembers?, ih (Nat.lt_of_succ_lt_succ h)]
    rfl

theorem safeParse_deepChart {n : Nat} (h : n < Json.maxDepth) :
    safeParse (deepChart n).compress = deepChart n := by
  rw [safeParse_compress (distinct_deepChart n), reread?_deepChart h]
  rfl

theorem exists_deepChart_eq_obj (n : Nat) : ∃ ms, deepChart n = .obj ms := by
  cases n <;> exact ⟨_, rfl⟩

theorem at?_deepChart (n : Nat) :
    (deepChart n).at? (deepAddress n) = some (.obj [("xSrc", .str "Region")]) := by
  induction n with
  | zero => rfl
  | succ n ih =>
    show (Entries.get? [("a", deepChart n)] "a").bind (·.at? (deepAddress n)) = _
    rw [Entries.get?_cons, if_pos rfl]
    exact ih

theorem keeps_deepChart {mapping : Mapping} {dataset : Dataset} (n : Nat) {pl : Place}
    (hpl : pl.owner? ≠ some encodeKey) :
    (remapPass mapping dataset).Keeps pl (deepChart n) (deepAddress n) := by
  have hsource : stripSourceSuffix? "a" = none := by decide
  induction n generalizing pl with
  | zero => trivial
  | succ n ih =>
    have hfilled : (remapPass mapping dataset).filled pl [] [("a", deepChart n)] = [] :=
      Pass.filled_eq_nil_iff.2 <| List.forall_mem_singleton.2 <|
        fires?_remapPass.2 (.inr fun h => by rw [hsource] at h; cases h.1)
    have hnew : newColumn? mapping pl "a" = none := by
      rw [newColumn?, columnByPath?, hsource, columnByName?, if_neg hpl]
      rfl
    refine ⟨_, deepChart n, rfl, rfl, by rw [hfilled]; exact List.not_mem_nil, ?_,
      ih fun h => absurd (Option.some.inj h) (by decide)⟩
    rw [settled?_remapPass, hnew, ite_self]

theorem fillsDeepest_deepChart {n : Nat} (h : n + 1 = Json.maxDepth) (dataset : Dataset) :
    FillsDeepest (deepMapping n) dataset (deepChart n) := by
  refine ⟨deepAddress n, "xSrc", "x", ?_, ?_, keeps_deepChart n (by decide), by decide,
    ⟨_, _, at?_deepChart n, rfl, fun h => ?_⟩, ?_⟩
  · rwa [deepAddress, List.length_replicate]
  · obtain ⟨n, rfl⟩ : ∃ m, n = m + 1 := ⟨125, Nat.succ.inj h⟩
    exact fun h => absurd (Step.key.inj (Option.some.inj h)) (by decide)
  · cases h
  · exact List.mem_singleton_self _

theorem not_fillsDeepest_of_depth {mapping : Mapping} {dataset : Dataset} {spec : Json}
    (hspec : spec.Distinct) (h : spec.depth < Json.maxDepth) : ¬FillsDeepest mapping dataset spec := by
  rintro ⟨a, key, base, hlength, -, -, hnames⟩
  obtain ⟨ms, v, hat, -⟩ := hnames.member
  have hlt := (depth_le_iff hspec).1 (Nat.le_of_lt_succ h) a _ hat rfl
  rw [Nat.succ.inj hlength] at hlt
  exact Nat.lt_irrefl _ hlt

/-- One object less than the reader allows. -/
theorem chartColumns_deepChart :
    (∃ ms, safeParse (deepChart 125).compress = .obj ms) ∧
      chartColumns (applyMapping (deepChart 125).compress (deepMapping 125) regions.dataset) =
        ["Region", "Sales"] := by
  have hread := safeParse_deepChart (n := 125) (by decide)
  have hobject : ∃ ms, safeParse (deepChart 125).compress = .obj ms := by
    rw [hread]
    exact exists_deepChart_eq_obj 125
  refine ⟨hobject, (chartColumns_applyMapping_iff _ _ regions.dataset hobject).2 (.inr ?_)⟩
  rw [hread]
  exact not_fillsDeepest_of_depth (distinct_deepChart 125) (by rw [depth_deepChart]; decide)

/-- The specification is lost: it can be read, but no longer once the mapping is applied. -/
theorem applied_deepChart_is_lost :
    (∃ ms, safeParse (deepChart 126).compress = .obj ms) ∧
      safeParse (applyMapping (deepChart 126).compress (deepMapping 126) regions.dataset) = emptyChart ∧
      chartColumns (applyMapping (deepChart 126).compress (deepMapping 126) regions.dataset) = [] ∧
      regions.dataset.dimensions = ["Region", "Sales"] := by
  have hread := safeParse_deepChart (n := 126) (by decide)
  have hobject : ∃ ms, safeParse (deepChart 126).compress = .obj ms := by
    rw [hread]
    exact exists_deepChart_eq_obj 126
  have hlost : safeParse (applyMapping (deepChart 126).compress (deepMapping 126) regions.dataset) =
      emptyChart := by
    refine safeParse_applyMapping_eq_emptyChart _ _ hobject ?_
    rw [hread]
    exact fillsDeepest_deepChart rfl regions.dataset
  exact ⟨hobject, hlost, chartColumns_of_get?_eq_none (by rw [hlost]; rfl), rfl⟩

end ChartTemplate
