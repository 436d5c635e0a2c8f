import ChartTemplate.Proofs.Entries
import ChartTemplate.Proofs.Walk.Trace

/-!
# What a visitor is shown

A visitor may add and remove entries of the container that it is shown while this is walked, and a walk
that it feeds with ever new documents does not end. `traverseNode` does what `walkNode` does, and keeps
what was visited so far if it is cut off: the visits, and the objects in which they were made
(`Track`).

* `orderlyWalks` : every visit is to an entry that is there, and those that the walk of an object makes to its
  members are to keys that the object had when its walk began, in their order.
* `recordsWalks` : these are the visits that the visitor is shown, and the outcome is that of the walk.
* `traverseNode_extends` : a longer walk begins with the visits of a shorter one.
-/

namespace ChartTemplate

open Entries (keys get?)

/-! ## Tracks -/

/-- The entry that is visited, as the visitor finds it. -/
def Visit.value? : Visit → Option Json
  | .member key owner _ => get? owner key
  | .element index owner _ => owner[index]?
  | .leaf _ value _ => some value

/-- What a walk leaves behind: visits, and walks of objects with what was in them at first. -/
inductive Track where
  | visit (w : Visit)
  | object (start : Members) (inside : List Track)

namespace Track

mutual

def visits : Track → List Visit
  | .visit w => [w]
  | .object _ inside => visitsIn inside

def visitsIn : List Track → List Visit
  | [] => []
  | t :: ts => t.visits ++ visitsIn ts

end

@[simp] theorem visitsIn_append (ts ts' : List Track) : visitsIn (ts ++ ts') = visitsIn ts ++ visitsIn ts' := by
  induction ts with
  | nil => rfl
  | cons t ts ih => simp [visitsIn, ih]

@[simp] theorem visitsIn_object (start : Members) (ts : List Track) :
    visitsIn [.object start ts] = visitsIn ts :=
  List.append_nil _

theorem mem_visitsIn {ts : List Track} {w : Visit} : w ∈ visitsIn ts ↔ ∃ t ∈ ts, w ∈ t.visits := by
  induction ts with
  | nil => simp [visitsIn]
  | cons t ts ih => simp [visitsIn, ih]

def memberKey? : Track → Option String
  | .visit (.member key _ _) => some key
  | _ => none

/-- Visits are to entries that are there. The members of an object that its walk visits are some of those
that it had at first, in their order. -/
inductive Sound : Track → Prop
  | visit {w : Visit} (h : w.value?.isSome = true) : Sound (.visit w)
  | object {start : Members} {inside : List Track}
      (hkeys : (inside.filterMap memberKey?).Sublist (keys start)) (hinside : ∀ t ∈ inside, t.Sound) :
      Sound (.object start inside)

theorem Sound.isSome {t : Track} (h : t.Sound) : ∀ w ∈ t.visits, w.value?.isSome = true := by
  induction h with
  | visit h =>
    intro w hw
    rwa [List.mem_singleton.1 hw]
  | object hkeys hinside ih =>
    intro w hw
    obtain ⟨t, ht, hw⟩ := mem_visitsIn.1 hw
    exact ih t ht w hw

/-- The tracks are sound, and visit no other members than those with the given keys, in this order. -/
structure Orderly (ts : List Track) (ks : List String) : Prop where
  sound : ∀ t ∈ ts, t.Sound
  keys : (ts.filterMap memberKey?).Sublist ks

theorem orderly_nil (ks : List String) : Orderly [] ks :=
  ⟨fun _ h => absurd h List.not_mem_nil, List.nil_sublist ks⟩

variable {ts ts' : List Track} {ks ks' : List String}

theorem Orderly.append (h : Orderly ts ks) (h' : Orderly ts' ks') : Orderly (ts ++ ts') (ks ++ ks') where
  sound t ht := (List.mem_append.1 ht).elim (h.sound t) (h'.sound t)
  keys := by
    rw [List.filterMap_append]
    exact h.keys.append h'.keys

theorem Orderly.mono (h : Orderly ts ks) (hks : ks.Sublist ks') : Orderly ts ks' :=
  ⟨h.sound, h.keys.trans hks⟩

theorem Orderly.object {start : Members} (h : Orderly ts (Entries.keys start)) : Orderly [.object start ts] [] where
  sound t ht := by
    rw [List.mem_singleton.1 ht]
    exact .object h.keys h.sound
  keys := List.Sublist.refl []

theorem orderly_visit {w : Visit} (h : w.value?.isSome = true) :
    Orderly [.visit w] (([.visit w] : List Track).filterMap memberKey?) where
  sound t ht := by
    rw [List.mem_singleton.1 ht]
    exact .visit h
  keys := List.Sublist.refl _

end Track

open Track (visitsIn Orderly)

/-! ## Walks that may be cut off -/

variable {σ α β : Type}

/-- What a walk has left behind, and its outcome if it came to its end. -/
structure Walked (σ α : Type) where
  tracks : List Track
  outcome : Option (σ × α)

namespace Walked

def done (s : σ) (a : α) : Walked σ α :=
  ⟨[], some (s, a)⟩

def cutOff : Walked σ α :=
  ⟨[], none⟩

def visiting (w : Visit) (x : Walked σ α) : Walked σ α :=
  ⟨.visit w :: x.tracks, x.outcome⟩

/-- A walk, and another one if it came to its end. -/
def next (x : Walked σ α) (f : σ × α → Walked σ β) : Walked σ β :=
  match x.outcome with
  | none => ⟨x.tracks, none⟩
  | some r => ⟨x.tracks ++ (f r).tracks, (f r).outcome⟩

def inObject (start : Members) (x : Walked σ Members) : Walked σ Json :=
  ⟨[.object start x.tracks], x.outcome.map (Prod.map id .obj)⟩

def inArray (x : Walked σ (List Json)) : Walked σ Json :=
  ⟨x.tracks, x.outcome.map (Prod.map id .arr)⟩

end Walked

mutual

/-- Walks a document as `walkNode` does, and keeps what was visited. -/
def traverseNode (v : Visitor σ) : Nat → σ → Key → Json → String → Walked σ Json
  | 0, _, _, _, _ => .cutOff
  | fuel + 1, s, key, j, path =>
    match j with
    | .obj ms => (traverseMembers v fuel s (keys ms) ms path).inObject ms
    | .arr js => (traverseIndices v fuel s 0 js path).inArray
    | j => .visiting (.leaf key j path) (.done (v.leaf s key j path) j)

/-- Walks members as `walkMembers` does, and keeps what was visited. -/
def traverseMembers (v : Visitor σ) : Nat → σ → List String → Members → String → Walked σ Members
  | 0, _, _, _, _ => .cutOff
  | _ + 1, s, [], ms, _ => .done s ms
  | fuel + 1, s, k :: ks, ms, path =>
    match get? ms k with
    | none => traverseMembers v fuel s ks ms path
    | some (.arr js) =>
      (traverseArray v fuel s k 0 js path).next fun r =>
        traverseMembers v fuel r.1 ks (Entries.insert ms k (.arr r.2)) path
    | some _ =>
      let after := v.member s k ms path
      .visiting (.member k ms path) <|
        match get? after.2 k with
        | none => traverseMembers v fuel after.1 ks after.2 path
        | some child =>
          if child.isComposite then
            (traverseNode v fuel after.1 (.name k) child (memberPath path k)).next fun r =>
              traverseMembers v fuel r.1 ks (Entries.insert after.2 k r.2) path
          else traverseMembers v fuel after.1 ks after.2 path

/-- Walks items as `walkArray` does, and keeps what was visited. -/
def traverseArray (v : Visitor σ) : Nat → σ → String → Nat → List Json → String → Walked σ (List Json)
  | 0, _, _, _, _, _ => .cutOff
  | fuel + 1, s, name, i, js, path =>
    if i < js.length then
      let after := v.element s i js path
      .visiting (.element i js path) <|
        match after.2[i]? with
        | none => traverseArray v fuel after.1 name (i + 1) after.2 path
        | some e =>
          (traverseNode v fuel after.1 (.index i) e (itemPath path i name)).next fun r =>
            traverseArray v fuel r.1 name (i + 1) (after.2.set i r.2) path
    else .done s js

/-- Walks items as `walkIndices` does, and keeps what was visited. -/
def traverseIndices (v : Visitor σ) : Nat → σ → Nat → List Json → String → Walked σ (List Json)
  | 0, _, _, _, _ => .cutOff
  | fuel + 1, s, i, js, path =>
    match js[i]? with
    | none => .done s js
    | some (.arr inner) =>
      (traverseArray v fuel s (indexName i) 0 inner path).next fun r =>
        traverseIndices v fuel r.1 (i + 1) (js.set i (.arr r.2)) path
    | some _ =>
      let after := v.element s i js path
      .visiting (.element i js path) <|
        match after.2[i]? with
        | none => traverseIndices v fuel after.1 (i + 1) after.2 path
        | some child =>
          if child.isComposite then
            (traverseNode v fuel after.1 (.index i) child (memberPath path (indexName i))).next fun r =>
              traverseIndices v fuel r.1 (i + 1) (after.2.set i r.2) path
          else traverseIndices v fuel after.1 (i + 1) after.2 path

end

/-! ## Visits are sound -/

section Sound

variable {v : Visitor σ} {fuel : Nat} {ks ks' : List String}

theorem Walked.orderly_next {x : Walked σ α} {f : σ × α → Walked σ β} (hx : Orderly x.tracks ks)
    (hf : ∀ r, Orderly (f r).tracks ks') : Orderly (x.next f).tracks (ks ++ ks') := by
  unfold next
  cases x.outcome with
  | none => exact hx.mono (List.sublist_append_left _ _)
  | some r => exact hx.append (hf r)

/-- Walks of at most a length are orderly. Only those of members visit members themselves. -/
structure OrderlyWalks (v : Visitor σ) (fuel : Nat) : Prop where
  node : ∀ s key j path, Orderly (traverseNode v fuel s key j path).tracks []
  members : ∀ s ks ms path, Orderly (traverseMembers v fuel s ks ms path).tracks ks
  array : ∀ s name i js path, Orderly (traverseArray v fuel s name i js path).tracks []
  indices : ∀ s i js path, Orderly (traverseIndices v fuel s i js path).tracks []

theorem orderly_traverseNode (ih : OrderlyWalks v fuel) (s : σ) (key : Key) (j : Json) (path : String) :
    Orderly (traverseNode v (fuel + 1) s key j path).tracks [] := by
  cases j with
  | obj ms =>
    rw [traverseNode]
    exact (ih.members s _ ms path).object
  | arr js =>
    rw [traverseNode]
    exact ih.indices s 0 js path
  | _ =>
    rw [traverseNode]
    · exact Track.orderly_visit rfl
    all_goals simp

theorem orderly_traverseMembers (ih : OrderlyWalks v fuel) (s : σ) (ks : List String) (ms : Members)
    (path : String) : Orderly (traverseMembers v (fuel + 1) s ks ms path).tracks ks := by
  cases ks with
  | nil => exact Track.orderly_nil _
  | cons k ks =>
    rw [traverseMembers]
    cases hget : get? ms k with
    | none => exact (ih.members s ks ms path).mono (List.sublist_cons_self k ks)
    | some x =>
      cases x with
      | arr js =>
        refine Orderly.mono ?_ (List.sublist_cons_self k ks)
        exact Walked.orderly_next (ih.array s k 0 js path) fun r => ih.members r.1 ks _ path
      | _ =>
        have hvisit : Orderly [.visit (.member k ms path)] [k] :=
          Track.orderly_visit (by rw [Visit.value?, hget]; rfl)
        refine hvisit.append ?_
        -- What the visit leaves under the key is walked, unless it is a scalar.
        cases get? (v.member s k ms path).2 k with
        | none => exact ih.members _ ks _ path
        | some child =>
          dsimp only
          split
          · exact Walked.orderly_next (ih.node _ _ child _) fun r => ih.members r.1 ks _ path
          · exact ih.members _ ks _ path

theorem orderly_traverseArray (ih : OrderlyWalks v fuel) (s : σ) (name : String) (i : Nat) (js : List Json)
    (path : String) : Orderly (traverseArray v (fuel + 1) s name i js path).tracks [] := by
  rw [traverseArray]
  split
  · rename_i hi
    have hvisit : Orderly [.visit (.element i js path)] [] :=
      Track.orderly_visit (by rw [Visit.value?, List.getElem?_eq_getElem hi]; rfl)
    refine hvisit.append ?_
    cases (v.element s i js path).2[i]? with
    | none => exact ih.array _ name (i + 1) _ path
    | some e => exact Walked.orderly_next (ih.node _ _ e _) fun r => ih.array r.1 name (i + 1) _ path
  · exact Track.orderly_nil _

theorem orderly_traverseIndices (ih : OrderlyWalks v fuel) (s : σ) (i : Nat) (js : List Json)
    (path : String) : Orderly (traverseIndices v (fuel + 1) s i js path).tracks [] := by
  rw [traverseIndices]
  cases hget : js[i]? with
  | none => exact Track.orderly_nil _
  | some x =>
    cases x with
    | arr inner => exact Walked.orderly_next (ih.array s _ 0 inner path) fun r => ih.indices r.1 (i + 1) _ path
    | _ =>
      have hvisit : Orderly [.visit (.element i js path)] [] :=
        Track.orderly_visit (by rw [Visit.value?, hget]; rfl)
      refine hvisit.append ?_
      cases (v.element s i js path).2[i]? with
      | none => exact ih.indices _ (i + 1) _ path
      | some child =>
        dsimp only
        split
        · exact Walked.orderly_next (ih.node _ _ child _) fun r => ih.indices r.1 (i + 1) _ path
        · exact ih.indices _ (i + 1) _ path

/-- **Every visit is sound**, whatever the visitor does. -/
theorem orderlyWalks (v : Visitor σ) (fuel : Nat) : OrderlyWalks v fuel := by
  induction fuel with
  | zero =>
    exact ⟨fun _ _ _ _ => Track.orderly_nil _, fun _ _ _ _ => Track.orderly_nil _,
      fun _ _ _ _ _ => Track.orderly_nil _, fun _ _ _ _ => Track.orderly_nil _⟩
  | succ fuel ih =>
    exact ⟨orderly_traverseNode ih, orderly_traverseMembers ih, orderly_traverseArray ih,
      orderly_traverseIndices ih⟩

end Sound

/-! ## The visits are those of the walk -/

section Records

variable {v : Visitor σ} {fuel : Nat}

/-- The visitor that also keeps all that it is shown. -/
def Visitor.recording (v : Visitor σ) : Visitor (σ × List Visit) where
  member s k ms path := (v.member s.1 k ms path).map (fun s' => (s', s.2 ++ [.member k ms path])) id
  element s i js path := (v.element s.1 i js path).map (fun s' => (s', s.2 ++ [.element i js path])) id
  leaf s key j path := (v.leaf s.1 key j path, s.2 ++ [.leaf key j path])

/-- The walk of the visitor that keeps what it is shown has the outcome of a walk that keeps what was
visited, and the same visits. -/
def Walked.Records (x : Walked σ α) (seen : List Visit) (r : Option ((σ × List Visit) × α)) : Prop :=
  r = x.outcome.map fun o => ((o.1, seen ++ visitsIn x.tracks), o.2)

namespace Walked.Records

variable {x : Walked σ α} {f : σ × α → Walked σ β} {seen : List Visit}
  {r : Option ((σ × List Visit) × α)} {g : (σ × List Visit) × α → Option ((σ × List Visit) × β)}

theorem done (s : σ) (a : α) (seen : List Visit) : (Walked.done s a).Records seen (some ((s, seen), a)) := by
  simp [Records, Walked.done, visitsIn]

theorem visiting {w : Visit} (h : x.Records (seen ++ [w]) r) : (x.visiting w).Records seen r := by
  rw [Records] at h ⊢
  simpa [Walked.visiting, visitsIn, Track.visits] using h

theorem next (h : x.Records seen r) (hf : ∀ o seen', (f o).Records seen' (g ((o.1, seen'), o.2))) :
    (x.next f).Records seen (r >>= g) := by
  rw [Records] at h
  subst h
  unfold Walked.next
  cases x.outcome with
  | none => rfl
  | some o =>
    have hrest := hf o (seen ++ visitsIn x.tracks)
    rw [Records] at hrest ⊢
    simpa using hrest

end Walked.Records

/-- Walks of at most a length keep what the visitor is shown. -/
structure RecordsWalks (v : Visitor σ) (fuel : Nat) : Prop where
  node : ∀ s seen key j path, (traverseNode v fuel s key j path).Records seen
    (walkNode v.recording fuel (s, seen) key j path)
  members : ∀ s seen ks ms path, (traverseMembers v fuel s ks ms path).Records seen
    (walkMembers v.recording fuel (s, seen) ks ms path)
  array : ∀ s seen name i js path, (traverseArray v fuel s name i js path).Records seen
    (walkArray v.recording fuel (s, seen) name i js path)
  indices : ∀ s seen i js path, (traverseIndices v fuel s i js path).Records seen
    (walkIndices v.recording fuel (s, seen) i js path)

theorem records_node (ih : RecordsWalks v fuel) (s : σ) (seen : List Visit) (key : Key) (j : Json)
    (path : String) : (traverseNode v (fuel + 1) s key j path).Records seen
      (walkNode v.recording (fuel + 1) (s, seen) key j path) := by
  cases j with
  | obj ms =>
    have hmembers := ih.members s seen (keys ms) ms path
    rw [traverseNode, walkNode]
    rw [Walked.Records] at hmembers ⊢
    rw [hmembers, Walked.inObject, Track.visitsIn_object]
    cases (traverseMembers v fuel s (keys ms) ms path).outcome <;> rfl
  | arr js =>
    have hindices := ih.indices s seen 0 js path
    rw [traverseNode, walkNode]
    rw [Walked.Records] at hindices ⊢
    rw [hindices, Walked.inArray]
    cases (traverseIndices v fuel s 0 js path).outcome <;> rfl
  | _ => exact (Walked.Records.done (v.leaf s key _ path) _ (seen ++ [.leaf key _ path])).visiting

theorem records_members (ih : RecordsWalks v fuel) (s : σ) (seen : List Visit) (ks : List String)
    (ms : Members) (path : String) : (traverseMembers v (fuel + 1) s ks ms path).Records seen
      (walkMembers v.recording (fuel + 1) (s, seen) ks ms path) := by
  cases ks with
  | nil => exact .done s ms seen
  | cons k ks =>
    rw [traverseMembers, walkMembers]
    cases get? ms k with
    | none => exact ih.members s seen ks ms path
    | some x =>
      cases x with
      | arr js => exact (ih.array s seen k 0 js path).next fun o seen => ih.members o.1 seen ks _ path
      | _ =>
        refine Walked.Records.visiting ?_
        dsimp only [Visitor.recording, Prod.map, id]
        cases get? (v.member s k ms path).2 k with
        | none => exact ih.members _ _ ks _ path
        | some child =>
          dsimp only
          split
          · exact (ih.node _ _ _ child _).next fun o seen => ih.members o.1 seen ks _ path
          · exact ih.members _ _ ks _ path

theorem records_array (ih : RecordsWalks v fuel) (s : σ) (seen : List Visit) (name : String) (i : Nat)
    (js : List Json) (path : String) : (traverseArray v (fuel + 1) s name i js path).Records seen
      (walkArray v.recording (fuel + 1) (s, seen) name i js path) := by
  rw [traverseArray, walkArray]
  split
  · refine Walked.Records.visiting ?_
    dsimp only [Visitor.recording, Prod.map, id]
    cases (v.element s i js path).2[i]? with
    | none => exact ih.array _ _ name (i + 1) _ path
    | some e => exact (ih.node _ _ _ e _).next fun o seen => ih.array o.1 seen name (i + 1) _ path
  · exact .done s js seen

theorem records_indices (ih : RecordsWalks v fuel) (s : σ) (seen : List Visit) (i : Nat) (js : List Json)
    (path : String) : (traverseIndices v (fuel + 1) s i js path).Records seen
      (walkIndices v.recording (fuel + 1) (s, seen) i js path) := by
  rw [traverseIndices, walkIndices]
  cases js[i]? with
  | none => exact .done s js seen
  | some x =>
    cases x with
    | arr inner =>
      exact (ih.array s seen _ 0 inner path).next fun o seen => ih.indices o.1 seen (i + 1) _ path
    | _ =>
      refine Walked.Records.visiting ?_
      dsimp only [Visitor.recording, Prod.map, id]
      cases (v.element s i js path).2[i]? with
      | none => exact ih.indices _ _ (i + 1) _ path
      | some child =>
        dsimp only
        split
        · exact (ih.node _ _ _ child _).next fun o seen => ih.indices o.1 seen (i + 1) _ path
        · exact ih.indices _ _ (i + 1) _ path

/-- **The visits that are kept** are those that the visitor is shown. -/
theorem recordsWalks (v : Visitor σ) (fuel : Nat) : RecordsWalks v fuel := by
  induction fuel with
  | zero =>
    exact ⟨fun _ _ _ _ _ => rfl, fun _ _ _ _ _ => rfl, fun _ _ _ _ _ _ => rfl, fun _ _ _ _ _ => rfl⟩
  | succ fuel ih => exact ⟨records_node ih, records_members ih, records_array ih, records_indices ih⟩

theorem outcome_traverseNode (v : Visitor σ) (fuel : Nat) (s : σ) (key : Key) (j : Json) (path : String) :
    (traverseNode v fuel s key j path).outcome = walkNode v fuel s key j path := by
  have hviews : v.recording.Views v Prod.fst := ⟨fun _ _ _ _ => rfl, fun _ _ _ _ => rfl, fun _ _ _ _ => rfl⟩
  have hseen := (walksSeen hviews fuel).node (s, []) key j path
  rw [SeenIn, (recordsWalks v fuel).node s [] key j path] at hseen
  rw [hseen]
  cases (traverseNode v fuel s key j path).outcome <;> rfl

end Records

/-! ## Longer walks -/

section Extends

variable {v : Visitor σ} {fuel : Nat}

/-- A walk is the other one, or was cut off when it had made the first visits of the other one. -/
def Walked.Extends (x y : Walked σ α) : Prop :=
  x = y ∨ x.outcome = none ∧ visitsIn x.tracks <+: visitsIn y.tracks

namespace Walked.Extends

variable {x y : Walked σ α}

theorem prefix_visits (h : x.Extends y) : visitsIn x.tracks <+: visitsIn y.tracks := by
  rcases h with rfl | ⟨-, h⟩
  · exact List.prefix_rfl
  · exact h

theorem trans {z : Walked σ α} (h : x.Extends y) (h' : y.Extends z) : x.Extends z := by
  rcases h with rfl | ⟨hcut, h⟩
  · exact h'
  · exact .inr ⟨hcut, h.trans h'.prefix_visits⟩

theorem cutOff (y : Walked σ α) : Walked.cutOff.Extends y :=
  .inr ⟨rfl, List.nil_prefix⟩

theorem visiting (h : x.Extends y) (w : Visit) : (x.visiting w).Extends (y.visiting w) := by
  rcases h with rfl | ⟨hcut, h⟩
  · exact .inl rfl
  · exact .inr ⟨hcut, List.prefix_append_right_inj [w] |>.2 h⟩

theorem next {f g : σ × α → Walked σ β} (h : x.Extends y) (hf : ∀ o, (f o).Extends (g o)) :
    (x.next f).Extends (y.next g) := by
  rcases h with rfl | ⟨hcut, h⟩
  · unfold Walked.next
    cases x.outcome with
    | none => exact .inl rfl
    | some o =>
      rcases hf o with heq | ⟨hcut, hprefix⟩
      · dsimp only
        rw [heq]
        exact .inl rfl
      · refine .inr ⟨hcut, ?_⟩
        rw [Track.visitsIn_append, Track.visitsIn_append]
        exact (List.prefix_append_right_inj _).2 hprefix
  · right
    have hleft : x.next f = ⟨x.tracks, none⟩ := by rw [Walked.next, hcut]
    have hright : visitsIn y.tracks <+: visitsIn (y.next g).tracks := by
      unfold Walked.next
      cases y.outcome with
      | none => exact List.prefix_rfl
      | some o =>
        rw [Track.visitsIn_append]
        exact List.prefix_append _ _
    rw [hleft]
    exact ⟨rfl, h.trans hright⟩

theorem inObject {x y : Walked σ Members} (h : x.Extends y) (start : Members) :
    (x.inObject start).Extends (y.inObject start) := by
  rcases h with rfl | ⟨hcut, h⟩
  · exact .inl rfl
  · refine .inr ⟨by rw [Walked.inObject, hcut]; rfl, ?_⟩
    rwa [Walked.inObject, Walked.inObject, Track.visitsIn_object, Track.visitsIn_object]

theorem inArray {x y : Walked σ (List Json)} (h : x.Extends y) : x.inArray.Extends y.inArray := by
  rcases h with rfl | ⟨hcut, h⟩
  · exact .inl rfl
  · exact .inr ⟨by rw [Walked.inArray, hcut]; rfl, h⟩

end Walked.Extends

/-- Walks of one more step at most extend those of a length. -/
structure ExtendsWalks (v : Visitor σ) (fuel : Nat) : Prop where
  node : ∀ s key j path, (traverseNode v fuel s key j path).Extends (traverseNode v (fuel + 1) s key j path)
  members : ∀ s ks ms path,
    (traverseMembers v fuel s ks ms path).Extends (traverseMembers v (fuel + 1) s ks ms path)
  array : ∀ s name i js path,
    (traverseArray v fuel s name i js path).Extends (traverseArray v (fuel + 1) s name i js path)
  indices : ∀ s i js path,
    (traverseIndices v fuel s i js path).Extends (traverseIndices v (fuel + 1) s i js path)

theorem extends_node (ih : ExtendsWalks v fuel) (s : σ) (key : Key) (j : Json) (path : String) :
    (traverseNode v (fuel + 1) s key j path).Extends (traverseNode v (fuel + 1 + 1) s key j path) := by
  cases j with
  | obj ms =>
    rw [traverseNode, traverseNode]
    exact (ih.members s _ ms path).inObject ms
  | arr js =>
    rw [traverseNode, traverseNode]
    exact (ih.indices s 0 js path).inArray
  | _ => exact .inl rfl

theorem extends_members (ih : ExtendsWalks v fuel) (s : σ) (ks : List String) (ms : Members) (path : String) :
    (traverseMembers v (fuel + 1) s ks ms path).Extends (traverseMembers v (fuel + 1 + 1) s ks ms path) := by
  cases ks with
  | nil => exact .inl rfl
  | cons k ks =>
    rw [traverseMembers, traverseMembers]
    cases get? ms k with
    | none => exact ih.members s ks ms path
    | some x =>
      cases x with
      | arr js => exact (ih.array s k 0 js path).next fun o => ih.members o.1 ks _ path
      | _ =>
        refine Walked.Extends.visiting ?_ _
        cases get? (v.member s k ms path).2 k with
        | none => exact ih.members _ ks _ path
        | some child =>
          dsimp only
          split
          · exact (ih.node _ _ child _).next fun o => ih.members o.1 ks _ path
          · exact ih.members _ ks _ path

theorem extends_array (ih : ExtendsWalks v fuel) (s : σ) (name : String) (i : Nat) (js : List Json)
    (path : String) : (traverseArray v (fuel + 1) s name i js path).Extends
      (traverseArray v (fuel + 1 + 1) s name i js path) := by
  rw [traverseArray, traverseArray]
  split
  · refine Walked.Extends.visiting ?_ _
    cases (v.element s i js path).2[i]? with
    | none => exact ih.array _ name (i + 1) _ path
    | some e => exact (ih.node _ _ e _).next fun o => ih.array o.1 name (i + 1) _ path
  · exact .inl rfl

theorem extends_indices (ih : ExtendsWalks v fuel) (s : σ) (i : Nat) (js : List Json) (path : String) :
    (traverseIndices v (fuel + 1) s i js path).Extends (traverseIndices v (fuel + 1 + 1) s i js path) := by
  rw [traverseIndices, traverseIndices]
  cases js[i]? with
  | none => exact .inl rfl
  | some x =>
    cases x with
    | arr inner => exact (ih.array s _ 0 inner path).next fun o => ih.indices o.1 (i + 1) _ path
    | _ =>
      refine Walked.Extends.visiting ?_ _
      cases (v.element s i js path).2[i]? with
      | none => exact ih.indices _ (i + 1) _ path
      | some child =>
        dsimp only
        split
        · exact (ih.node _ _ child _).next fun o => ih.indices o.1 (i + 1) _ path
        · exact ih.indices _ (i + 1) _ path

theorem extendsWalks (v : Visitor σ) (fuel : Nat) : ExtendsWalks v fuel := by
  induction fuel with
  | zero =>
    exact ⟨fun _ _ _ _ => .cutOff _, fun _ _ _ _ => .cutOff _, fun _ _ _ _ _ => .cutOff _,
      fun _ _ _ _ => .cutOff _⟩
  | succ fuel ih => exact ⟨extends_node ih, extends_members ih, extends_array ih, extends_indices ih⟩

theorem traverseNode_extends (v : Visitor σ) (fuel more : Nat) (s : σ) (key : Key) (j : Json) (path : String) :
    (traverseNode v fuel s key j path).Extends (traverseNode v (fuel + more) s key j path) := by
  induction more with
  | zero => exact .inl rfl
  | succ more ih => exact ih.trans ((extendsWalks v (fuel + more)).node s key j path)

end Extends

/-! ## What a visitor is shown -/

/-- **A visitor is shown what is there**, whatever it does with the containers that it is shown and however
long the walk is. The visits that are kept are those that the visitor is shown, and the walk has its
outcome. Each is to an entry that is there, and the walk of each object visits members only under keys that
the object had when its walk began, each at most as often as it was there. A walk that is cut off has made
the first visits of each longer one. -/
theorem visits_live (v : Visitor σ) (fuel : Nat) (s : σ) (key : Key) (j : Json) (path : String) :
    (∀ t ∈ (traverseNode v fuel s key j path).tracks, t.Sound) ∧
    (∀ w ∈ visitsIn (traverseNode v fuel s key j path).tracks, w.value?.isSome = true) ∧
    walkNode v fuel s key j path = (traverseNode v fuel s key j path).outcome ∧
    (∀ seen, walkNode v.recording fuel (s, seen) key j path =
      (walkNode v fuel s key j path).map fun o =>
        ((o.1, seen ++ visitsIn (traverseNode v fuel s key j path).tracks), o.2)) ∧
    ∀ more, visitsIn (traverseNode v fuel s key j path).tracks <+:
      visitsIn (traverseNode v (fuel + more) s key j path).tracks := by
  have hsound := ((orderlyWalks v fuel).node s key j path).sound
  have houtcome := outcome_traverseNode v fuel s key j path
  refine ⟨hsound, fun w hw => ?_, houtcome.symm, fun seen => ?_, fun more => ?_⟩
  · obtain ⟨t, ht, hw⟩ := Track.mem_visitsIn.1 hw
    exact (hsound t ht).isSome w hw
  · rw [← houtcome]
    exact (recordsWalks v fuel).node s seen key j path
  · exact (traverseNode_extends v fuel more s key j path).prefix_visits

end ChartTemplate
