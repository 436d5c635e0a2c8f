import ChartTemplate.Proofs.Entries
import ChartTemplate.Proofs.Json.Parsed

/-!
# Documents with distinct keys

`Json.Distinct j` says that no object in `j` has a key twice. Documents that were read have this
property (`distinct_safeParse`): a repeated key is merged into its first place.
-/

namespace ChartTemplate

open Entries (keys insertAll)

mutual

/-- No object in the document has a key twice. -/
def Json.Distinct : Json → Prop
  | .arr js => DistinctItems js
  | .obj ms => (keys ms).Nodup ∧ DistinctMembers ms
  | _ => True

/-- No object in the documents has a key twice. -/
def DistinctItems : List Json → Prop
  | [] => True
  | j :: js => j.Distinct ∧ DistinctItems js

/-- No object in the values of the members has a key twice. -/
def DistinctMembers : List (String × Json) → Prop
  | [] => True
  | (_, j) :: ms => j.Distinct ∧ DistinctMembers ms

end

@[simp] theorem distinct_arr {js : List Json} : (Json.arr js).Distinct ↔ DistinctItems js := by
  rw [Json.Distinct]

@[simp] theorem distinct_obj {ms : Members} :
    (Json.obj ms).Distinct ↔ (keys ms).Nodup ∧ DistinctMembers ms := by
  rw [Json.Distinct]

theorem distinct_of_not_isComposite {j : Json} (h : j.isComposite = false) : j.Distinct := by
  cases j <;> simp_all [Json.isComposite, Json.Distinct]

theorem distinctItems_iff {js : List Json} : DistinctItems js ↔ ∀ j ∈ js, j.Distinct := by
  induction js with
  | nil => simp [DistinctItems]
  | cons j js ih => rw [DistinctItems, ih, List.forall_mem_cons]

theorem distinctMembers_iff {ms : Members} : DistinctMembers ms ↔ ∀ m ∈ ms, m.2.Distinct := by
  induction ms with
  | nil => simp [DistinctMembers]
  | cons m ms ih => rw [DistinctMembers, ih, List.forall_mem_cons]

theorem distinctMembers_insertAll {ms ws : Members} (hms : DistinctMembers ms)
    (hws : DistinctMembers ws) : DistinctMembers (insertAll ms ws) := by
  rw [distinctMembers_iff] at *
  intro m hm
  exact (Entries.mem_insertAll hm).elim (hms m) (hws m)

theorem distinct_insert {ms : Members} (hms : (Json.obj ms).Distinct) (key : String) {v : Json}
    (hv : v.Distinct) : (Json.obj (Entries.insert ms key v)).Distinct := by
  obtain ⟨hnodup, hdist⟩ := distinct_obj.1 hms
  have hone : DistinctMembers [(key, v)] := ⟨hv, trivial⟩
  exact distinct_obj.2 ⟨Entries.nodup_keys_insert hnodup key v, distinctMembers_insertAll hdist hone⟩

theorem distinct_ofList {ms : List (String × Json)} (h : DistinctMembers ms) :
    (Json.obj (Entries.ofList ms)).Distinct := by
  have hnil : DistinctMembers [] := trivial
  have hnodup : (keys ([] : Members)).Nodup := List.nodup_nil
  exact distinct_obj.2
    ⟨Entries.nodup_keys_insertAll hnodup ms, distinctMembers_insertAll hnil h⟩

/-! ## Reading -/

theorem parsed_distinct : Json.Read.Parsed fun _ j => j.Distinct where
  scalar h _ := distinct_of_not_isComposite h
  number _ := trivial
  arr h := distinct_arr.2 (distinctItems_iff.2 h)
  obj h := distinct_ofList (distinctMembers_iff.2 h)

theorem distinct_emptyChart : emptyChart.Distinct := by
  simp [emptyChart, DistinctMembers, DistinctItems]

/-- **What is read has distinct keys.** -/
theorem distinct_safeParse (text : String) : (safeParse text).Distinct :=
  parsed_distinct.of_safeParse text

end ChartTemplate
