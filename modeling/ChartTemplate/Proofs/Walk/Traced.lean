import ChartTemplate.Proofs.Walk.Visits

/-!
# Walks with a trace

`Visitor.traced` notes where a visitor was. If what one visitor does is what another one does on a
view of its state, then so are their walks (`Visitor.Views`, `walk?_eq_map`). So a trace leaves a walk
as it is (`walk?_traced_fst`), and the trace of a visitor that changes nothing is that of the idle pass,
whatever else the visitor keeps in its state (`walk?_traced_eq`).
-/

namespace ChartTemplate

variable {σ τ : Type}

/-- What one visitor does on its states, the other does on what is seen of them. -/
structure Visitor.Views (v : Visitor σ) (w : Visitor τ) (view : σ → τ) : Prop where
  member : ∀ s k ms path, w.member (view s) k ms path = (v.member s k ms path).map view id
  element : ∀ s i js path, w.element (view s) i js path = (v.element s i js path).map view id
  leaf : ∀ s key j path, w.leaf (view s) key j path = view (v.leaf s key j path)

/-- The visitor changes nothing that it visits. -/
structure Visitor.ReadOnly (v : Visitor σ) : Prop where
  member : ∀ s k ms path, (v.member s k ms path).2 = ms
  element : ∀ s i js path, (v.element s i js path).2 = js

def MemberVisit.reference (m : MemberVisit) : String :=
  memberPath m.path m.key

/-- The visitor that also notes the references of the members that it visits. -/
def Visitor.traced (v : Visitor σ) : Visitor (σ × List String) where
  member s k ms path := (v.member s.1 k ms path).map (fun s' => (s', s.2 ++ [memberPath path k])) id
  element s i js path := (v.element s.1 i js path).map (fun s' => (s', s.2)) id
  leaf s key j path := (v.leaf s.1 key j path, s.2)

/-- The visitor that does nothing but note the references of members. -/
def referenceVisitor : Visitor (List String) :=
  .ofMember fun seen k ms path => (seen ++ [memberPath path k], ms)

section Views

variable {v : Visitor σ} {w : Visitor τ} {view : σ → τ}

abbrev SeenIn {α : Type} (view : σ → τ) (x' : Option (τ × α)) (x : Option (σ × α)) : Prop :=
  x' = x.map (Prod.map view id)

theorem SeenIn.bind {α β : Type} {x' : Option (τ × α)} {x : Option (σ × α)}
    {f' : τ × α → Option (τ × β)} {f : σ × α → Option (σ × β)} (h : SeenIn view x' x)
    (hf : ∀ s a, SeenIn view (f' (view s, a)) (f (s, a))) : SeenIn view (x' >>= f') (x >>= f) := by
  subst h
  cases x with
  | none => rfl
  | some r => exact hf r.1 r.2

/-- Walks of at most a length are seen in each other. -/
structure WalksSeen (v : Visitor σ) (w : Visitor τ) (view : σ → τ) (fuel : Nat) : Prop where
  node : ∀ s key j path,
    SeenIn view (walkNode w fuel (view s) key j path) (walkNode v fuel s key j path)
  members : ∀ s ks ms path,
    SeenIn view (walkMembers w fuel (view s) ks ms path) (walkMembers v fuel s ks ms path)
  array : ∀ s name i js path,
    SeenIn view (walkArray w fuel (view s) name i js path) (walkArray v fuel s name i js path)
  indices : ∀ s i js path,
    SeenIn view (walkIndices w fuel (view s) i js path) (walkIndices v fuel s i js path)

variable {fuel : Nat}

theorem walkNode_seen (h : v.Views w view) (ih : WalksSeen v w view fuel) (s : σ) (key : Key)
    (j : Json) (path : String) :
    SeenIn view (walkNode w (fuel + 1) (view s) key j path) (walkNode v (fuel + 1) s key j path) := by
  cases j with
  | obj ms =>
    rw [walkNode, walkNode]
    refine (ih.members s _ ms path).bind fun s ms => ?_
    rfl
  | arr js =>
    rw [walkNode, walkNode]
    refine (ih.indices s 0 js path).bind fun s js => ?_
    rfl
  | _ =>
    simp only [walkNode, h.leaf]
    rfl

theorem walkMembers_seen (h : v.Views w view) (ih : WalksSeen v w view fuel) (s : σ)
    (ks : List String) (ms : Members) (path : String) :
    SeenIn view (walkMembers w (fuel + 1) (view s) ks ms path)
      (walkMembers v (fuel + 1) s ks ms path) := by
  cases ks with
  | nil => rfl
  | cons k ks =>
    rw [walkMembers, walkMembers]
    cases Entries.get? ms k with
    | none => exact ih.members s ks ms path
    | some x =>
      cases x with
      | arr js => exact (ih.array s k 0 js path).bind fun s js => ih.members s ks _ path
      | _ =>
        -- The walk goes on with what the visit leaves there.
        rcases hvisit : v.member s k ms path with ⟨s', ms'⟩
        simp only [h.member, hvisit, Prod.map, id]
        cases Entries.get? ms' k with
        | none => exact ih.members s' ks ms' path
        | some child =>
          dsimp only
          split
          · exact (ih.node s' (.name k) child _).bind fun s child => ih.members s ks _ path
          · exact ih.members s' ks ms' path

theorem walkArray_seen (h : v.Views w view) (ih : WalksSeen v w view fuel) (s : σ) (name : String)
    (i : Nat) (js : List Json) (path : String) :
    SeenIn view (walkArray w (fuel + 1) (view s) name i js path)
      (walkArray v (fuel + 1) s name i js path) := by
  rw [walkArray, walkArray]
  split
  · rcases hvisit : v.element s i js path with ⟨s', js'⟩
    simp only [h.element, hvisit, Prod.map, id]
    cases js'[i]? with
    | none => exact ih.array s' name (i + 1) js' path
    | some e => exact (ih.node s' (.index i) e _).bind fun s e => ih.array s name (i + 1) _ path
  · rfl

theorem walkIndices_seen (h : v.Views w view) (ih : WalksSeen v w view fuel) (s : σ) (i : Nat)
    (js : List Json) (path : String) :
    SeenIn view (walkIndices w (fuel + 1) (view s) i js path)
      (walkIndices v (fuel + 1) s i js path) := by
  rw [walkIndices, walkIndices]
  cases js[i]? with
  | none => rfl
  | some x =>
    cases x with
    | arr inner =>
      exact (ih.array s (indexName i) 0 inner path).bind fun s js => ih.indices s (i + 1) _ path
    | _ =>
      rcases hvisit : v.element s i js path with ⟨s', js'⟩
      simp only [h.element, hvisit, Prod.map, id]
      cases js'[i]? with
      | none => exact ih.indices s' (i + 1) js' path
      | some child =>
        dsimp only
        split
        · exact (ih.node s' (.index i) child _).bind fun s child => ih.indices s (i + 1) _ path
        · exact ih.indices s' (i + 1) js' path

theorem walksSeen (h : v.Views w view) (fuel : Nat) : WalksSeen v w view fuel := by
  induction fuel with
  | zero => exact ⟨fun _ _ _ _ => rfl, fun _ _ _ _ => rfl, fun _ _ _ _ _ => rfl, fun _ _ _ _ => rfl⟩
  | succ fuel ih =>
    exact ⟨walkNode_seen h ih, walkMembers_seen h ih, walkArray_seen h ih, walkIndices_seen h ih⟩

/-- **Walks and views**: the walk of a visitor that does the same on a view of the state. -/
theorem walk?_eq_map (h : v.Views w view) (room : Nat) (s : σ) (j : Json) (path : String) :
    walk? w room (view s) j path = (walk? v room s j path).map (Prod.map view id) :=
  (walksSeen h _).node s .root j path

end Views

/-! ## Traces -/

variable {v : Visitor σ}

theorem views_traced_fst (v : Visitor σ) : v.traced.Views v Prod.fst where
  member _ _ _ _ := rfl
  element _ _ _ _ := rfl
  leaf _ _ _ _ := rfl

theorem Visitor.ReadOnly.views_traced_snd (hv : v.ReadOnly) :
    v.traced.Views referenceVisitor Prod.snd where
  member s k ms path := Prod.ext rfl (hv.member s.1 k ms path).symm
  element s i js path := Prod.ext rfl (hv.element s.1 i js path).symm
  leaf _ _ _ _ := rfl

theorem walk?_traced_fst (v : Visitor σ) (room : Nat) (s : σ) (seen : List String) (j : Json)
    (path : String) :
    walk? v room s j path = (walk? v.traced room (s, seen) j path).map (Prod.map Prod.fst id) :=
  walk?_eq_map (views_traced_fst v) room (s, seen) j path

theorem walk?_referenceVisitor (room : Nat) {j : Json} (hj : j.Distinct) (path : String) :
    walk? referenceVisitor room [] j path =
      some ((Pass.idle.visits (.here path) j).map MemberVisit.reference, j) := by
  have hv : referenceVisitor.Follows Pass.idle fun seen m => seen ++ [m.reference] :=
    follows_idle fun _ _ _ _ _ _ => rfl
  have hwidth : Pass.idle.Within 0 := fun h => nomatch h
  rw [walk?_eq hv hwidth [] hj path (Nat.zero_le _), Pass.node_idle, ← List.flatMap_eq_foldl,
    List.map_eq_flatMap]

/-- **The trace of a visitor that changes nothing**: its walk comes to its end, leaves the document as
it is, and visits the members that the idle pass visits, in their order. -/
theorem walk?_traced_eq (hv : v.ReadOnly) (room : Nat) (s : σ) {j : Json} (hj : j.Distinct)
    (path : String) :
    ∃ s', walk? v.traced room (s, []) j path =
      some ((s', (Pass.idle.visits (.here path) j).map MemberVisit.reference), j) := by
  have hseen := walk?_eq_map hv.views_traced_snd room (s, []) j path
  rw [walk?_referenceVisitor room hj path] at hseen
  obtain ⟨⟨⟨s', seen⟩, j'⟩, hwalk, heq⟩ := Option.map_eq_some_iff.1 hseen.symm
  obtain ⟨rfl, rfl⟩ := Prod.mk.inj heq
  exact ⟨s', hwalk⟩

end ChartTemplate
