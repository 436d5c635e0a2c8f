import ChartTemplate.Proofs.Json.Reading
import ChartTemplate.Proofs.Walk.Visits
import ChartTemplate.Spec.Mapping

/-!
# What verification reports

`verify` collects what it finds at the members that a walk visits (`verify_eq`): `unresolvedAt` is
what it finds at one of them. Nothing is found at a source field exactly if it holds the name of a
column, and at an encoding exactly if all attributes do.

`verify_compress_eq_nil_iff` is about a specification that was written and is read again: its numbers
may change, and they are no names of columns.
-/

namespace ChartTemplate

open Entries (keys get?)

variable {columns : List String}

/-- The missing references that are found at a visit. -/
def unresolvedAt (columns : List String) (m : MemberVisit) : List Unresolved :=
  (if m.key == encodeKey then unresolvedAttributes columns m.value else []) ++
    if (stripSourceSuffix? m.key).isSome && !namesColumn columns m.value then
      [⟨memberPath m.path m.key, documentText m.value⟩]
    else []

theorem walk_verifyVisitor (columns : List String) {spec : Json} (hspec : spec.Distinct)
    (path : String) :
    walk? (verifyVisitor columns) 0 [] spec path =
      some ((Pass.idle.visits (.here path) spec).flatMap (unresolvedAt columns), spec) := by
  have hv : (verifyVisitor columns).Follows Pass.idle
      fun found m => found ++ unresolvedAt columns m :=
    follows_idle fun found key ms path x hget => by simp only [unresolvedOf, hget, unresolvedAt]
  have hwidth : Pass.idle.Within 0 := fun h => nomatch h
  rw [walk?_eq hv hwidth [] hspec path (Nat.zero_le _), Pass.node_idle, List.flatMap_eq_foldl]

/-- **Verification** reports what is found at the visits, in order. -/
theorem verify_eq (text : String) (columns : List String) :
    verify text columns =
      (Pass.idle.visits (.here mappingRoot) (safeParse text)).flatMap (unresolvedAt columns) := by
  rw [verify]
  cases hconf : isConfigured text with
  | true => rw [if_pos rfl, walk, walk_verifyVisitor columns (distinct_safeParse text)]; rfl
  | false => rw [if_neg Bool.false_ne_true, safeParse_of_not_configured hconf]; rfl

theorem namesColumn_iff {v : Json} :
    namesColumn columns v = true ↔ ∃ name, v = .str name ∧ name ∈ columns := by
  cases v <;> simp [namesColumn]

theorem unresolvedAttributes_obj_eq_nil_iff {ms : Members} :
    unresolvedAttributes columns (.obj ms) = [] ↔ ∀ m ∈ ms, namesColumn columns m.2 = true := by
  simp [unresolvedAttributes, List.filter_eq_nil_iff]

/-- Nothing is found at a member exactly if it is no source field without a column, and no encoding
that has an attribute without a column. -/
theorem unresolvedAt_eq_nil_iff {m : MemberVisit} :
    unresolvedAt columns m = [] ↔
      (m.key = encodeKey → unresolvedAttributes columns m.value = []) ∧
        ((stripSourceSuffix? m.key).isSome = true → namesColumn columns m.value = true) := by
  rw [unresolvedAt, List.append_eq_nil_iff]
  refine and_congr ?_ ?_
  · by_cases h : m.key = encodeKey <;> simp [h]
  · cases (stripSourceSuffix? m.key).isSome <;> cases namesColumn columns m.value <;> simp

theorem unresolvedAttributes_of_namesColumn {v : Json} (h : namesColumn columns v = true) :
    unresolvedAttributes columns v = [] := by
  obtain ⟨name, rfl, -⟩ := namesColumn_iff.1 h
  rfl

theorem exists_unresolved_attribute {es : Members} {key : String} {v : Json} (hmem : (key, v) ∈ es)
    (h : ¬namesColumn columns v = true) (path : String) :
    ∃ u ∈ unresolvedAt columns ⟨path, encodeKey, .obj es⟩, u.reference = key := by
  refine ⟨⟨key, documentText v⟩, List.mem_append_left _ ?_, rfl⟩
  rw [if_pos (beq_self_eq_true encodeKey)]
  exact List.mem_map.2 ⟨(key, v), List.mem_filter.2 ⟨hmem, by simpa using h⟩, rfl⟩

theorem exists_unresolved_source {key : String} {v : Json}
    (hkey : (stripSourceSuffix? key).isSome = true) (h : ¬namesColumn columns v = true)
    (path : String) :
    ∃ u ∈ unresolvedAt columns ⟨path, key, v⟩, u.reference = memberPath path key := by
  refine ⟨⟨memberPath path key, documentText v⟩, List.mem_append_right _ ?_, rfl⟩
  rw [if_pos (by simp [hkey, h])]
  exact List.mem_singleton_self _

/-! ## Specifications without missing references -/

/-- Nothing is missing in the document at a place. -/
def Resolved (columns : List String) (pl : Place) (j : Json) : Prop :=
  ∀ m ∈ Pass.idle.visits pl j, unresolvedAt columns m = []

theorem verify_eq_nil_iff {text : String} :
    verify text columns = [] ↔ Resolved columns (.here mappingRoot) (safeParse text) := by
  rw [verify_eq, List.flatMap_eq_nil_iff]
  rfl

theorem resolved_emptyChart (columns : List String) (pl : Place) :
    Resolved columns pl emptyChart := by
  have hvisits : Pass.idle.visits pl emptyChart = [⟨pl.path, "options", .obj []⟩] := by
    rw [emptyChart, Pass.visits, Pass.memberVisits_idle_cons, Pass.memberVisits_idle_cons]
    rfl
  have hkey : "options" ≠ encodeKey ∧ ¬(stripSourceSuffix? "options").isSome = true := by decide
  intro m hm
  rw [hvisits] at hm
  obtain rfl := List.mem_singleton.1 hm
  exact unresolvedAt_eq_nil_iff.2 ⟨fun h => absurd h hkey.1, fun h => absurd h hkey.2⟩

/-! ## Specifications that are read again -/

theorem isArray_reread? {j j' : Json} {depth : Nat} (h : j.reread? depth = some j') :
    j'.isArray = j.isArray := by
  rcases Json.reread?_eq_some h with
    ⟨_, _, rfl, rfl⟩ | ⟨_, _, _, rfl, rfl, -⟩ | ⟨_, _, _, rfl, rfl, -⟩ | rfl <;> rfl

theorem namesColumn_reread? {j j' : Json} {depth : Nat} (h : j.reread? depth = some j') :
    namesColumn columns j' = namesColumn columns j := by
  rcases Json.reread?_eq_some h with
    ⟨_, _, rfl, rfl⟩ | ⟨_, _, _, rfl, rfl, -⟩ | ⟨_, _, _, rfl, rfl, -⟩ | rfl <;> rfl

theorem namesColumn_rereadMembers? {ms ms' : Members} {depth : Nat}
    (h : rereadMembers? ms depth = some ms') :
    (∀ m ∈ ms', namesColumn columns m.2 = true) ↔ ∀ m ∈ ms, namesColumn columns m.2 = true := by
  induction ms generalizing ms' with
  | nil => rw [← Option.some.inj h]
  | cons m ms ih =>
    obtain ⟨x, hx, h⟩ := Option.bind_eq_some_iff.1 h
    obtain ⟨rest, hrest, h⟩ := Option.bind_eq_some_iff.1 h
    obtain rfl := Option.some.inj h
    rw [List.forall_mem_cons, List.forall_mem_cons, ih hrest, namesColumn_reread? hx]

theorem unresolvedAttributes_reread? {v v' : Json} {depth : Nat} (h : v.reread? depth = some v') :
    unresolvedAttributes columns v' = [] ↔ unresolvedAttributes columns v = [] := by
  rcases Json.reread?_eq_some h with
    ⟨_, _, rfl, rfl⟩ | ⟨_, _, _, rfl, rfl, -⟩ | ⟨_, _, _, rfl, rfl, hms⟩ | rfl
  · rfl
  · rfl
  · rw [unresolvedAttributes_obj_eq_nil_iff, unresolvedAttributes_obj_eq_nil_iff,
      namesColumn_rereadMembers? hms]
  · rfl

theorem unresolvedAt_reread? {v v' : Json} {depth : Nat} (h : v.reread? depth = some v')
    (path key : String) :
    unresolvedAt columns ⟨path, key, v'⟩ = [] ↔ unresolvedAt columns ⟨path, key, v⟩ = [] := by
  rw [unresolvedAt_eq_nil_iff, unresolvedAt_eq_nil_iff, unresolvedAttributes_reread? h,
    namesColumn_reread? h]

theorem resolved_scalar {j : Json} (hj : j.isComposite = false) (pl : Place) :
    Resolved columns pl j := by
  intro m hm
  rw [Pass.visits_scalar hj] at hm
  exact absurd hm List.not_mem_nil

mutual

theorem resolved_reread? (pl : Place) (j : Json) {j' : Json} {depth : Nat}
    (h : j.reread? depth = some j') : Resolved columns pl j' ↔ Resolved columns pl j := by
  cases j with
  | num n =>
    obtain ⟨n', -, rfl⟩ := Option.map_eq_some_iff.1 h
    exact iff_of_true (resolved_scalar rfl pl) (resolved_scalar rfl pl)
  | arr js =>
    cases depth with
    | zero => cases h
    | succ depth =>
      obtain ⟨js', hjs, rfl⟩ := Option.map_eq_some_iff.1 h
      rw [Resolved, Resolved, Pass.visits, Pass.visits]
      exact resolved_rereadItems? pl 0 js hjs
  | obj ms =>
    cases depth with
    | zero => cases h
    | succ depth =>
      obtain ⟨ms', hms, rfl⟩ := Option.map_eq_some_iff.1 h
      rw [Resolved, Resolved, Pass.visits, Pass.visits]
      exact resolved_rereadMembers? pl ms hms
  | _ =>
    cases depth <;>
    · obtain rfl := Option.some.inj h
      rfl

theorem resolved_rereadItems? (pl : Place) (i : Nat) (js : List Json) {js' : List Json}
    {depth : Nat} (h : rereadItems? js depth = some js') :
    (∀ m ∈ Pass.idle.itemVisits pl i js', unresolvedAt columns m = []) ↔
      ∀ m ∈ Pass.idle.itemVisits pl i js, unresolvedAt columns m = [] := by
  match js with
  | [] => rw [← Option.some.inj h]
  | j :: js =>
    obtain ⟨x, hx, h⟩ := Option.bind_eq_some_iff.1 h
    obtain ⟨rest, hrest, h⟩ := Option.bind_eq_some_iff.1 h
    obtain rfl := Option.some.inj h
    rw [Pass.itemVisits, Pass.itemVisits, List.forall_mem_append, List.forall_mem_append,
      resolved_rereadItems? pl (i + 1) js hrest]
    exact and_congr_left' (resolved_reread? (pl.nth i) j hx)

theorem resolved_rereadMembers? (pl : Place) (ms : List (String × Json)) {ms' : Members}
    {depth : Nat} (h : rereadMembers? ms depth = some ms') :
    (∀ m ∈ Pass.idle.memberVisits pl [] ms', unresolvedAt columns m = []) ↔
      ∀ m ∈ Pass.idle.memberVisits pl [] ms, unresolvedAt columns m = [] := by
  match ms with
  | [] => rw [← Option.some.inj h]
  | (k, v) :: ms =>
    obtain ⟨x, hx, h⟩ := Option.bind_eq_some_iff.1 h
    obtain ⟨rest, hrest, h⟩ := Option.bind_eq_some_iff.1 h
    obtain rfl := Option.some.inj h
    have hvisit : (∀ m ∈ (if x.isArray then [] else [⟨pl.path, k, x⟩] : List MemberVisit),
        unresolvedAt columns m = []) ↔
        ∀ m ∈ (if v.isArray then [] else [⟨pl.path, k, v⟩] : List MemberVisit),
          unresolvedAt columns m = [] := by
      rw [isArray_reread? hx]
      split
      · rfl
      · rw [List.forall_mem_singleton, List.forall_mem_singleton, unresolvedAt_reread? hx]
    rw [Pass.memberVisits_idle_cons, Pass.memberVisits_idle_cons]
    simp only [List.forall_mem_append]
    rw [hvisit, resolved_rereadMembers? pl ms hrest]
    exact and_congr_left' (and_congr_right' (resolved_reread? (.member pl.path k) v hx))

end

/-- **Verifying what was written**: nothing is missing exactly if the text is nested too deep to be
read, or nothing is missing in the document that was written. -/
theorem verify_compress_eq_nil_iff {j : Json} (hj : j.Distinct) :
    verify j.compress columns = [] ↔
      Json.parse? j.compress = none ∨ Resolved columns (.here mappingRoot) j := by
  have hparse : Json.parse? j.compress = j.reread? Json.maxDepth := by
    rw [Json.parse?, Json.compress, String.toList_ofList, Json.parseChars?_chars hj]
  rw [verify_eq_nil_iff, safeParse_compress hj, hparse]
  cases hread : j.reread? Json.maxDepth with
  | none => simpa using resolved_emptyChart columns _
  | some j' => simpa using resolved_reread? (.here mappingRoot) j hread

end ChartTemplate
