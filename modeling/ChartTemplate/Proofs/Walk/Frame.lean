import ChartTemplate.Proofs.Walk.Address

/-!
# What a pass leaves alone

`Pass.Touches` : the addresses at which a pass gives a member a text, or a sibling fills it. A pass
keeps every other address (`Pass.keeps_of_not_touches`): what it leaves there has the shape of what was
there (`Pass.extends_node`), and is the same if the pass touches nothing in it
(`Pass.node_eq_of_not_touches`).
-/

namespace ChartTemplate

open Entries (keys get? insertAll)

/-- A document with the shape of the other one: scalars are the same, arrays are as long, and objects
have its members in their order, followed by members that are all new. -/
def Json.Extends (v' : Json) (new : String → Prop) : Json → Prop
  | .arr js => ∃ js', v' = .arr js' ∧ js'.length = js.length
  | .obj ms => ∃ ms' added, v' = .obj ms' ∧ keys ms' = keys ms ++ added ∧ ∀ k ∈ added, new k
  | v => v' = v

theorem Json.Extends.mono {v v' : Json} {new new' : String → Prop} (h : v'.Extends new v)
    (hnew : ∀ k, new k → new' k) : v'.Extends new' v := by
  cases v with
  | obj ms =>
    obtain ⟨ms', added, rfl, hkeys, hadded⟩ := h
    exact ⟨ms', added, rfl, hkeys, fun k hk => hnew k (hadded k hk)⟩
  | _ => exact h

theorem Json.Distinct.at? {j v : Json} {a : List Step} (hj : j.Distinct) (hat : j.at? a = some v) :
    v.Distinct := by
  induction a generalizing j with
  | nil => exact Option.some.inj hat ▸ hj
  | cons step a ih =>
    cases step with
    | key k =>
      cases j with
      | obj ms =>
        obtain ⟨x, hx, hat⟩ := Option.bind_eq_some_iff.1 hat
        have hms := distinctMembers_iff.1 (distinct_obj.1 hj).2
        exact ih (hms _ (Entries.mem_of_get? hx)) hat
      | _ => cases hat
    | index i =>
      cases j with
      | arr js =>
        obtain ⟨x, hx, hat⟩ := Option.bind_eq_some_iff.1 hat
        have hjs := distinctItems_iff.1 (distinct_arr.1 hj)
        exact ih (hjs _ (List.mem_of_getElem? hx)) hat
      | _ => cases hat

namespace Pass

variable {p : Pass} {pl : Place} {j v : Json} {a b : List Step}

/-- The addresses at which a pass changes a member of an object. -/
inductive Touches (p : Pass) (pl : Place) (j : Json) : List Step → Prop
  /-- The pass gives the member a text. -/
  | settled {a ms k v} (hat : j.at? a = some (.obj ms)) (hget : get? ms k = some v)
      (h : p.settled? (pl.along a) k v ≠ none) : Touches p pl j (a ++ [.key k])
  /-- A sibling fills the member. -/
  | filled {a ms k} (hat : j.at? a = some (.obj ms))
      (h : k ∈ keys (p.filled (pl.along a) [] ms)) : Touches p pl j (a ++ [.key k])

theorem Touches.within (hat : j.at? a = some v) (h : p.Touches (pl.along a) v b) :
    p.Touches pl j (a ++ b) := by
  have hinner {b : List Step} : j.at? (a ++ b) = v.at? b := by rw [Json.at?_append, hat]; rfl
  cases h with
  | settled hms hget h =>
    rw [← List.append_assoc]
    rw [← Place.along_append] at h
    exact .settled (hinner.trans hms) hget h
  | filled hms h =>
    rw [← List.append_assoc]
    rw [← Place.along_append] at h
    exact .filled (hinner.trans hms) h

/-- **The frame of a pass**: it keeps an address if it touches none on the way. -/
theorem keeps_of_not_touches (hat : j.at? a = some v)
    (hfree : ∀ b, b <+: a → ¬p.Touches pl j b) : p.Keeps pl j a := by
  induction a generalizing pl j with
  | nil => trivial
  | cons step a ih =>
    -- What is touched behind the first step is touched in the whole document.
    have hrest {x : Json} (hx : j.at? [step] = some x) :
        ∀ b, b <+: a → ¬p.Touches (pl.along [step]) x b := by
      intro b hb htouch
      exact hfree (step :: b) (List.cons_prefix_cons.2 ⟨rfl, hb⟩) (htouch.within hx)
    have hfirst : ¬p.Touches pl j [step] := hfree [step] (List.prefix_append [step] a)
    cases step with
    | key k =>
      cases j with
      | obj ms =>
        obtain ⟨x, hx, hat⟩ := Option.bind_eq_some_iff.1 hat
        have hstep : (Json.obj ms).at? [.key k] = some x := by rw [Json.at?, hx]; rfl
        refine ⟨ms, x, rfl, hx, ?_, ?_, ih hat (hrest hstep)⟩
        · intro hk
          exact hfirst (.filled (a := []) rfl hk)
        · by_contra hsettled
          exact hfirst (.settled (a := []) rfl hx hsettled)
      | _ => cases hat
    | index i =>
      cases j with
      | arr js =>
        obtain ⟨x, hx, hat⟩ := Option.bind_eq_some_iff.1 hat
        have hstep : (Json.arr js).at? [.index i] = some x := by rw [Json.at?, hx]; rfl
        exact ⟨js, x, rfl, hx, ih hat (hrest hstep)⟩
      | _ => cases hat

theorem extends_node (pl : Place) (v : Json) :
    (p.node pl v).Extends (fun k => p.Touches pl v [.key k]) v := by
  cases v with
  | arr js =>
    refine ⟨p.items pl 0 js, by rw [node], ?_⟩
    have hitems : ∀ i js, (p.items pl i js).length = js.length := by
      intro i js
      induction js generalizing i with
      | nil => rfl
      | cons x js ih => rw [items, List.length_cons, List.length_cons, ih]
    exact hitems 0 js
  | obj ms =>
    refine ⟨insertAll (p.members pl ms) (p.filled pl [] ms),
      Entries.newNames (keys ms) (keys (p.filled pl [] ms)), by rw [node], ?_, ?_⟩
    · rw [Entries.keys_insertAll, keys_members]
    · intro k hk
      exact .filled (a := []) rfl (Entries.mem_newNames.1 hk).1
  | _ => rfl

/-- **A pass that touches nothing** changes nothing. -/
theorem node_eq_of_not_touches (pl : Place) (j : Json) (hj : j.Distinct)
    (hfree : ∀ b, ¬p.Touches pl j b) : p.node pl j = j := by
  -- Neither does the pass touch anything in the parts of the document.
  have hpart {step : Step} {x : Json} (hx : j.at? [step] = some x) :
      ∀ b, ¬p.Touches (pl.along [step]) x b := fun b h => hfree (step :: b) (h.within hx)
  match j with
  | .arr js =>
    have hjs := distinctItems_iff.1 (distinct_arr.1 hj)
    rw [node]
    refine congrArg Json.arr (List.ext_getElem? fun i => ?_)
    rw [items_getElem?, Nat.zero_add]
    cases hx : js[i]? with
    | none => rfl
    | some x =>
      have hmem := List.mem_of_getElem? hx
      have hstep : (Json.arr js).at? [.index i] = some x := by rw [Json.at?, hx]; rfl
      exact congrArg some (node_eq_of_not_touches (pl.nth i) x (hjs x hmem) (hpart hstep))
  | .obj ms =>
    obtain ⟨hnodup, hms⟩ := distinct_obj.1 hj
    have hfilled : p.filled pl [] ms = [] := by
      refine List.eq_nil_iff_forall_not_mem.2 fun f hf => ?_
      exact hfree [.key f.1] (.filled (a := []) rfl (Entries.mem_keys_of_mem hf))
    rw [node, hfilled, Entries.insertAll_nil, members_eq_map]
    refine congrArg Json.obj ((List.map_congr_left fun m hmem => ?_).trans (List.map_id ms))
    obtain ⟨k, x⟩ := m
    have hx := Entries.get?_of_mem hnodup hmem
    have hstep : (Json.obj ms).at? [.key k] = some x := by rw [Json.at?, hx]; rfl
    have hsettled : p.settled? pl k x = none := by
      by_contra hsettled
      exact hfree [.key k] (.settled (a := []) rfl hx hsettled)
    have hnode := node_eq_of_not_touches (.member pl.path k) x (distinctMembers_iff.1 hms _ hmem)
      (hpart hstep)
    exact Prod.ext rfl ((outcome_of_not_settled hsettled).trans hnode)
  | .null | .bool _ | .num _ | .str _ => rfl
termination_by j.size
decreasing_by
  · rw [size_arr]
    have := size_le_of_mem_items hmem
    omega
  · rw [size_obj]
    have := size_le_of_mem_members hmem
    omega

end Pass

end ChartTemplate
