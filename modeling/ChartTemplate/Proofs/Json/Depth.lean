import ChartTemplate.Proofs.Json.Parsed
import ChartTemplate.Proofs.Walk.Address

/-!
# How deep containers are nested

`Json.depth` counts the containers that a document has inside each other. What is read is nested no
deeper than the reader allows (`depth_safeParse_le`), and the depth shows in the addresses of containers
(`depth_le_iff`).
-/

namespace ChartTemplate

mutual

/-- How many arrays and objects are nested in each other. -/
def Json.depth : Json → Nat
  | .arr js => depthItems js + 1
  | .obj ms => depthMembers ms + 1
  | _ => 0

def depthItems : List Json → Nat
  | [] => 0
  | j :: js => max j.depth (depthItems js)

/-- The greatest depth of the values of some members. -/
def depthMembers : List (String × Json) → Nat
  | [] => 0
  | (_, j) :: ms => max j.depth (depthMembers ms)

end

theorem depth_of_not_isComposite {j : Json} (h : j.isComposite = false) : j.depth = 0 := by
  cases j <;> first | rfl | cases h

theorem depthItems_le_iff {js : List Json} {d : Nat} : depthItems js ≤ d ↔ ∀ j ∈ js, j.depth ≤ d := by
  induction js with
  | nil => simp [depthItems]
  | cons j js ih => rw [depthItems, Nat.max_le, ih, List.forall_mem_cons]

theorem depthMembers_le_iff {ms : Members} {d : Nat} :
    depthMembers ms ≤ d ↔ ∀ m ∈ ms, m.2.depth ≤ d := by
  induction ms with
  | nil => simp [depthMembers]
  | cons m ms ih => rw [depthMembers, Nat.max_le, ih, List.forall_mem_cons]

/-! ## Reading -/

theorem parsed_depth : Json.Read.Parsed fun d j => j.depth ≤ d where
  scalar h _ := depth_of_not_isComposite h ▸ Nat.zero_le _
  number _ := Nat.zero_le _
  arr h := Nat.succ_le_succ (depthItems_le_iff.2 h)
  obj h := Nat.succ_le_succ (depthMembers_le_iff.2 fun m hm =>
    h m ((Entries.mem_insertAll hm).resolve_left List.not_mem_nil))

/-- **What is read** is nested no deeper than the reader allows. -/
theorem depth_safeParse_le (text : String) : (safeParse text).depth ≤ Json.maxDepth :=
  parsed_depth.of_safeParse text

/-! ## Addresses -/

theorem at?_arr_eq_some_iff {js : List Json} {a : List Step} {c : Json} :
    (Json.arr js).at? a = some c ↔
      (a = [] ∧ c = .arr js) ∨ ∃ i v b, a = .index i :: b ∧ js[i]? = some v ∧ v.at? b = some c := by
  match a with
  | [] =>
    refine ⟨fun h => .inl ⟨rfl, (Option.some.inj h).symm⟩, ?_⟩
    rintro (⟨-, rfl⟩ | ⟨_, _, _, h, -⟩)
    · rfl
    · cases h
  | .key k :: b => simp [Json.at?]
  | .index i :: b => simp [Json.at?, Option.bind_eq_some_iff]

theorem at?_obj_eq_some_iff {ms : Members} {a : List Step} {c : Json} :
    (Json.obj ms).at? a = some c ↔
      (a = [] ∧ c = .obj ms) ∨ ∃ k v b, a = .key k :: b ∧ Entries.get? ms k = some v ∧ v.at? b = some c := by
  match a with
  | [] =>
    refine ⟨fun h => .inl ⟨rfl, (Option.some.inj h).symm⟩, ?_⟩
    rintro (⟨-, rfl⟩ | ⟨_, _, _, h, -⟩)
    · rfl
    · cases h
  | .key k :: b => simp [Json.at?, Option.bind_eq_some_iff]
  | .index i :: b => simp [Json.at?]

/-- Containers are at addresses of less than so many steps. -/
def Json.HoldsWithin (j : Json) (d : Nat) : Prop :=
  ∀ a c, j.at? a = some c → c.isComposite = true → a.length < d

theorem holdsWithin_scalar {j : Json} (h : j.isComposite = false) (d : Nat) : j.HoldsWithin d := by
  intro a c hat hc
  by_cases ha : a = []
  · subst ha
    rw [← Option.some.inj hat, h] at hc
    cases hc
  · rw [Json.at?_scalar h ha] at hat
    cases hat

theorem holdsWithin_arr_iff {js : List Json} {d : Nat} :
    (Json.arr js).HoldsWithin (d + 1) ↔ ∀ j ∈ js, j.HoldsWithin d := by
  constructor
  · intro h j hj a c hat hc
    obtain ⟨i, hi⟩ := List.mem_iff_getElem?.1 hj
    exact Nat.lt_of_succ_lt_succ
      (h (.index i :: a) c (at?_arr_eq_some_iff.2 (.inr ⟨i, j, a, rfl, hi, hat⟩)) hc)
  · intro h a c hat hc
    rcases at?_arr_eq_some_iff.1 hat with ⟨rfl, -⟩ | ⟨i, v, b, rfl, hi, hb⟩
    · exact Nat.succ_pos d
    · exact Nat.succ_lt_succ (h v (List.mem_of_getElem? hi) b c hb hc)

theorem holdsWithin_obj_iff {ms : Members} (hms : (Entries.keys ms).Nodup) {d : Nat} :
    (Json.obj ms).HoldsWithin (d + 1) ↔ ∀ m ∈ ms, m.2.HoldsWithin d := by
  constructor
  · intro h m hm a c hat hc
    exact Nat.lt_of_succ_lt_succ (h (.key m.1 :: a) c
      (at?_obj_eq_some_iff.2 (.inr ⟨m.1, m.2, a, rfl, Entries.get?_of_mem hms hm, hat⟩)) hc)
  · intro h a c hat hc
    rcases at?_obj_eq_some_iff.1 hat with ⟨rfl, -⟩ | ⟨k, v, b, rfl, hk, hb⟩
    · exact Nat.succ_pos d
    · exact Nat.succ_lt_succ (h (k, v) (Entries.mem_of_get? hk) b c hb hc)

theorem not_holdsWithin_zero {j : Json} (h : j.isComposite = true) : ¬j.HoldsWithin 0 :=
  fun hwithin => absurd (hwithin [] j rfl h) (Nat.lt_irrefl 0)

/-- **The depth of a document** is told by the addresses of its containers. -/
theorem depth_le_iff {j : Json} (hj : j.Distinct) {d : Nat} : j.depth ≤ d ↔ j.HoldsWithin d := by
  induction d generalizing j with
  | zero =>
    cases j with
    | arr | obj =>
      exact ⟨fun h => absurd h (Nat.not_succ_le_zero _), fun h => absurd h (not_holdsWithin_zero rfl)⟩
    | _ => exact ⟨fun _ => holdsWithin_scalar rfl 0, fun _ => Nat.le_refl 0⟩
  | succ d ih =>
    cases j with
    | arr js =>
      have hitems := distinctItems_iff.1 (distinct_arr.1 hj)
      rw [Json.depth, Nat.add_le_add_iff_right, depthItems_le_iff, holdsWithin_arr_iff]
      exact forall₂_congr fun j hmem => ih (hitems j hmem)
    | obj ms =>
      obtain ⟨hnodup, hdist⟩ := distinct_obj.1 hj
      have hmembers := distinctMembers_iff.1 hdist
      rw [Json.depth, Nat.add_le_add_iff_right, depthMembers_le_iff, holdsWithin_obj_iff hnodup]
      exact forall₂_congr fun m hmem => ih (hmembers m hmem)
    | _ => exact ⟨fun _ => holdsWithin_scalar rfl _, fun _ => Nat.zero_le _⟩

end ChartTemplate
