import ChartTemplate.Proofs.Json.Distinct
import ChartTemplate.Spec.Walk
import ChartTemplate.Table.Basic

/-!
# Passes over a specification

A `Pass` is what a visitor does at the members that it meets: it puts a text in the place of a value,
it fills a sibling with a column, and it replaces the attributes of an object while it visits the
member that holds the object. `Pass.node` is the outcome of a pass on a document and `Pass.visits`
the visits it makes, both by recursion on the document. `Proofs/Walk/Run` shows that a walk computes
them.

* A member that holds an array is not visited, and neither is one that an earlier sibling filled.
* What siblings fill is written last, in the order of the visits (`Entries.insertAll`).
-/

namespace ChartTemplate

open Entries (keys get? insertAll)

/-! ## Places -/

/-- How a document was reached. -/
inductive Place where
  /-- As the document that is walked, or as an item of an array with a name. -/
  | here (path : String)
  /-- As a member of the object at a path. -/
  | member (path k : String)
  /-- As an item of an array without a name at a path. -/
  | item (path : String) (i : Nat)
deriving DecidableEq, Repr

namespace Place

def path : Place → String
  | here path => path
  | member path k => memberPath path k
  | item path i => memberPath path (indexName i)

def owner? : Place → Option String
  | member _ k => some k
  | _ => none

/-- The place of the `i`th item of an array at the place. -/
def nth : Place → Nat → Place
  | here path, i => item path i
  | member path k, i => here (itemPath path i k)
  | item path n, i => here (itemPath path i (indexName n))

end Place

def Json.isArray : Json → Bool
  | .arr _ => true
  | _ => false

def columnJson (cells : List Cell) : Json :=
  .arr (cells.map Cell.toJson)

/-! ## What a pass does -/

/-- What a visitor does at the members that it meets. -/
structure Pass where
  /-- The text that takes the place of an attribute of the object that is the member `owner`. -/
  relabel : (owner key : String) → Option String
  /-- The text that takes the place of the value of the member `key` of the object at `path`. -/
  settle : (path key : String) → Option String
  /-- The sibling that the member fills, and the cells that go there. -/
  fill : (path key : String) → Json → Option (String × List Cell)
  /-- No member fills itself. -/
  fill_ne : ∀ {path key v f}, fill path key v = some f → f.1 ≠ key

/-- A visit to a member, with the value that it has then. -/
structure MemberVisit where
  path : String
  key : String
  value : Json

namespace Pass

variable (p : Pass)

/-- The pass that changes nothing. -/
def idle : Pass where
  relabel _ _ := none
  settle _ _ := none
  fill _ _ _ := none
  fill_ne h := nomatch h

/-- The value of a member of the object at a place when the walk enters the object. -/
def entering (pl : Place) (k : String) (v : Json) : Json :=
  ((pl.owner?.bind fun owner => p.relabel owner k).map Json.str).getD v

/-- The members of the object at a place when the walk enters the object. -/
def entered (pl : Place) (ms : Members) : Members :=
  ms.map fun m => (m.1, p.entering pl m.1 m.2)

/-- The text that a member ends up with, if the pass gives it one. -/
def settled? (pl : Place) (k : String) (v : Json) : Option String :=
  match pl.owner?.bind fun owner => p.relabel owner k with
  | some s => some ((p.settle pl.path k).getD s)
  | none => if v.isArray then none else p.settle pl.path k

/-- The entry that a member fills when it is visited. -/
def filling? (path k : String) (v : Json) : Option (String × Json) :=
  (p.fill path k v).map fun f => (f.1, columnJson f.2)

/-- The entry that a member of the object at a place fills. Arrays are not visited, and neither are
the members of the names in `taken`, which are filled. -/
def fires? (pl : Place) (taken : List String) (k : String) (v : Json) : Option (String × Json) :=
  if (p.entering pl k v).isArray || taken.contains k then none
  else p.filling? pl.path k (p.entering pl k v)

def filled (pl : Place) (taken : List String) : Members → Members
  | [] => []
  | (k, v) :: ms =>
    let fired := (p.fires? pl taken k v).toList
    fired ++ filled pl (taken ++ keys fired) ms

mutual

/-- The outcome of the pass on the document at a place. -/
def node (pl : Place) : Json → Json
  | .arr js => .arr (items pl 0 js)
  | .obj ms => .obj (insertAll (members pl ms) (p.filled pl [] ms))
  | j => j

/-- The outcome of the pass on the values of members of the object at a place. -/
def members (pl : Place) : List (String × Json) → List (String × Json)
  | [] => []
  | (k, v) :: ms =>
    (k, match p.settled? pl k v with
      | some s => .str s
      | none => node (.member pl.path k) v) :: members pl ms

/-- The outcome of the pass on items, from the `i`th on, of the array at a place. -/
def items (pl : Place) (i : Nat) : List Json → List Json
  | [] => []
  | j :: js => node (pl.nth i) j :: items pl (i + 1) js

end

mutual

/-- The visits that the pass makes in the document at a place. -/
def visits (pl : Place) : Json → List MemberVisit
  | .arr js => itemVisits pl 0 js
  | .obj ms => memberVisits pl [] ms
  | _ => []

def memberVisits (pl : Place) (taken : List String) : List (String × Json) → List MemberVisit
  | [] => []
  | (k, v) :: ms =>
    (if taken.contains k then []
      else (if (p.entering pl k v).isArray then [] else [⟨pl.path, k, p.entering pl k v⟩]) ++
        match p.settled? pl k v with
        | some _ => []
        | none => visits (.member pl.path k) v) ++
      memberVisits pl (taken ++ keys (p.fires? pl taken k v).toList) ms

/-- The visits in items, from the `i`th on, of the array at a place. -/
def itemVisits (pl : Place) (i : Nat) : List Json → List MemberVisit
  | [] => []
  | j :: js => visits (pl.nth i) j ++ itemVisits pl (i + 1) js

end

/-- The outcome of the pass on a member that no sibling fills. -/
def outcome (pl : Place) (k : String) (v : Json) : Json :=
  match p.settled? pl k v with
  | some s => .str s
  | none => p.node (.member pl.path k) v

def visitsAt (pl : Place) (taken : List String) (k : String) (v : Json) : List MemberVisit :=
  if taken.contains k then []
  else (if (p.entering pl k v).isArray then [] else [⟨pl.path, k, p.entering pl k v⟩]) ++
    match p.settled? pl k v with
    | some _ => []
    | none => p.visits (.member pl.path k) v

/-! ## What a visit does -/

/-- The value of an object when the walk enters it from the member `k`. -/
def enter (path k : String) : Json → Json
  | .obj ms => .obj (p.entered (.member path k) ms)
  | j => j

/-- The value that a visit leaves in the member `k`. -/
def rewrite (path k : String) (v : Json) : Json :=
  match p.settle path k with
  | some s => .str s
  | none => p.enter path k v

/-- The members of an object after the visit to the member `k` with the value `v`. -/
def edit (path k : String) (v : Json) (ms : Members) : Members :=
  Entries.insert (insertAll ms (p.filling? path k v).toList) k (p.rewrite path k v)

end Pass

/-- A visitor that does at each member what the pass says, and notes the visit in its state. -/
structure Visitor.Follows {σ : Type} (v : Visitor σ) (p : Pass) (note : σ → MemberVisit → σ) :
    Prop where
  /-- A visit to a member that holds no array. -/
  member : ∀ s k ms path x, (keys ms).Nodup → get? ms k = some x → x.isArray = false →
    v.member s k ms path = (note s ⟨path, k, x⟩, p.edit path k x ms)
  /-- Items are left alone. -/
  element : ∀ s i js path, v.element s i js path = (s, js)
  /-- Scalars are left alone. -/
  leaf : ∀ s key j path, v.leaf s key j path = s

namespace Pass

variable {p : Pass} {pl : Place} {k : String} {v : Json} {ms : Members}

/-! ## Small facts -/

theorem entering_of_relabel_none
    (h : (pl.owner?.bind fun owner => p.relabel owner k) = none) : p.entering pl k v = v := by
  rw [entering, h]; rfl

theorem entering_here (path : String) : p.entering (.here path) k v = v := rfl

theorem entering_item (path : String) (i : Nat) : p.entering (.item path i) k v = v := rfl

theorem entered_here (path : String) : p.entered (.here path) ms = ms := by
  simp [entered, entering_here]

theorem entered_item (path : String) (i : Nat) : p.entered (.item path i) ms = ms := by
  simp [entered, entering_item]

theorem node_scalar (h : v.isComposite = false) : p.node pl v = v := by
  cases v <;> first | rfl | cases h

theorem visits_scalar (h : v.isComposite = false) : p.visits pl v = [] := by
  cases v <;> first | rfl | cases h

theorem of_entering_isArray (h : (p.entering pl k v).isArray = true) :
    ∃ js, v = .arr js ∧ p.entering pl k v = .arr js ∧ p.settled? pl k v = none := by
  unfold entering at h ⊢
  unfold settled?
  cases hattr : pl.owner?.bind fun owner => p.relabel owner k with
  | some s => simp [hattr, Json.isArray] at h
  | none =>
    rw [hattr] at h
    cases v with
    | arr js => exact ⟨js, rfl, rfl, rfl⟩
    | _ => cases h

theorem rewrite_of_settled {t : String} (h : p.settled? pl k v = some t) :
    p.rewrite pl.path k (p.entering pl k v) = .str t := by
  unfold settled? at h
  unfold entering rewrite
  cases hlabel : pl.owner?.bind fun owner => p.relabel owner k with
  | some s =>
    rw [hlabel] at h
    cases hsettle : p.settle pl.path k <;> simp_all [enter]
  | none =>
    rw [hlabel] at h
    dsimp only at h
    split at h
    · cases h
    · rw [h]

theorem rewrite_of_not_settled (h : p.settled? pl k v = none)
    (harr : (p.entering pl k v).isArray = false) :
    p.entering pl k v = v ∧ p.rewrite pl.path k v = p.enter pl.path k v := by
  unfold settled? at h
  cases hlabel : pl.owner?.bind fun owner => p.relabel owner k with
  | some s => rw [hlabel] at h; cases h
  | none =>
    rw [hlabel] at h
    rw [entering_of_relabel_none hlabel] at harr
    rw [harr] at h
    rw [rewrite, show p.settle pl.path k = none from h]
    exact ⟨entering_of_relabel_none hlabel, rfl⟩

theorem outcome_of_settled {t : String} (h : p.settled? pl k v = some t) :
    p.outcome pl k v = .str t := by
  rw [outcome, h]

theorem outcome_of_not_settled (h : p.settled? pl k v = none) :
    p.outcome pl k v = p.node (.member pl.path k) v := by
  rw [outcome, h]

theorem members_cons (ms : Members) :
    p.members pl ((k, v) :: ms) = (k, p.outcome pl k v) :: p.members pl ms := rfl

theorem members_eq_map (pl : Place) (ms : Members) :
    p.members pl ms = ms.map fun m => (m.1, p.outcome pl m.1 m.2) := by
  induction ms with
  | nil => rfl
  | cons m ms ih => rw [members_cons, ih, List.map_cons]

theorem memberVisits_cons (taken : List String) (ms : Members) :
    p.memberVisits pl taken ((k, v) :: ms) = p.visitsAt pl taken k v ++
      p.memberVisits pl (taken ++ keys (p.fires? pl taken k v).toList) ms := rfl

theorem visitsAt_of_taken {taken : List String} (h : k ∈ taken) : p.visitsAt pl taken k v = [] := by
  rw [visitsAt, if_pos (by simpa using h)]

theorem visitsAt_of_array {taken : List String} (h : k ∉ taken)
    (harr : (p.entering pl k v).isArray = true) (hsettled : p.settled? pl k v = none) :
    p.visitsAt pl taken k v = p.visits (.member pl.path k) v := by
  rw [visitsAt, if_neg (by simpa using h), harr, hsettled]
  rfl

theorem visitsAt_of_settled {taken : List String} {t : String} (h : k ∉ taken)
    (harr : (p.entering pl k v).isArray = false) (hsettled : p.settled? pl k v = some t) :
    p.visitsAt pl taken k v = [⟨pl.path, k, p.entering pl k v⟩] := by
  rw [visitsAt, if_neg (by simpa using h), harr, hsettled]
  rfl

theorem visitsAt_of_visited {taken : List String} (h : k ∉ taken)
    (harr : (p.entering pl k v).isArray = false) (hsettled : p.settled? pl k v = none) :
    p.visitsAt pl taken k v =
      ⟨pl.path, k, p.entering pl k v⟩ :: p.visits (.member pl.path k) v := by
  rw [visitsAt, if_neg (by simpa using h), harr, hsettled]
  rfl

@[simp] theorem keys_members (ms : Members) : keys (p.members pl ms) = keys ms := by
  induction ms with
  | nil => rfl
  | cons m ms ih => rw [members_cons, Entries.keys_cons, Entries.keys_cons, ih]

@[simp] theorem keys_entered (ms : Members) : keys (p.entered pl ms) = keys ms :=
  Entries.keys_map (p.entering pl) ms

theorem fires?_eq_some {taken : List String} {f : String × Json}
    (h : p.fires? pl taken k v = some f) :
    (p.entering pl k v).isArray = false ∧ k ∉ taken ∧
      p.filling? pl.path k (p.entering pl k v) = some f := by
  unfold fires? at h
  split at h
  · cases h
  · rename_i hcond
    simp only [Bool.or_eq_true, not_or, Bool.not_eq_true] at hcond
    exact ⟨hcond.1, by simpa using hcond.2, h⟩

theorem fires?_of_visited {taken : List String} (harr : (p.entering pl k v).isArray = false)
    (htaken : k ∉ taken) :
    p.fires? pl taken k v = p.filling? pl.path k (p.entering pl k v) := by
  rw [fires?, if_neg]
  simp [harr, htaken]

theorem fires?_of_taken {taken : List String} (htaken : k ∈ taken) :
    p.fires? pl taken k v = none := by
  rw [fires?, if_pos]
  simp [htaken]

theorem fires?_of_array (taken : List String) (harr : (p.entering pl k v).isArray = true) :
    p.fires? pl taken k v = none := by
  rw [fires?, if_pos]
  simp [harr]

theorem filling?_eq_some {path : String} {f : String × Json}
    (h : p.filling? path k v = some f) :
    f.1 ≠ k ∧ ∃ cells, p.fill path k v = some (f.1, cells) ∧ f.2 = columnJson cells := by
  obtain ⟨⟨base, cells⟩, hfill, rfl⟩ := Option.map_eq_some_iff.1 h
  exact ⟨p.fill_ne hfill, cells, hfill, rfl⟩

theorem not_mem_keys_filling? (path k : String) (v : Json) :
    k ∉ keys (p.filling? path k v).toList := by
  intro hk
  obtain ⟨f, hf, hfk⟩ := List.mem_map.1 hk
  exact (filling?_eq_some (Option.mem_toList.1 hf)).1 hfk

end Pass

end ChartTemplate
