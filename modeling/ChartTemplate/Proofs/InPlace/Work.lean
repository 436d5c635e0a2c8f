import ChartTemplate.Fault

/-!
# Work in place

`InPlace σ ε` is for work that writes to a state as it goes: what was written before an error stays
written. Whoever takes an entry of a list that has none at the place is cut off (`Abort.outOfBounds`).

Operations that give a new state with their result are the work that `Checked.onto` says: an error
leaves the state as it was. Where `x` is an operation that writes as it goes, `x.Does y` says that it
does the same as `y`, so that it writes nothing before an error and takes only entries that are there.
-/

namespace ChartTemplate

/-- Why work was cut off. -/
inductive Abort where
  | fault (f : Fault)
  /-- An entry or a part was taken from a list that does not have it. -/
  | outOfBounds
deriving DecidableEq

abbrev InPlace (σ ε α : Type) := ExceptT ε (StateT σ (Except Abort)) α

/-- A computation that faults cut off. -/
def Abort.ofFault {α : Type} (x : Except Fault α) : Except Abort α :=
  x.mapError Abort.fault

/-! ## Lists -/

section Lists

variable {α : Type}

def entryAt (xs : List α) (i : Nat) : Except Abort α :=
  match xs[i]? with
  | some x => .ok x
  | none => .error .outOfBounds

/-- The entries from a place on up to another one. -/
def partAt (xs : List α) (i j : Nat) : Except Abort (List α) :=
  if i ≤ j ∧ j ≤ xs.length then .ok ((xs.take j).drop i) else .error .outOfBounds

def replacedAt (xs : List α) (i : Nat) (x : α) : Except Abort (List α) :=
  if i < xs.length then .ok (xs.set i x) else .error .outOfBounds

variable {xs : List α} {i j : Nat}

theorem entryAt_eq_getD (h : i < xs.length) (d : α) : entryAt xs i = .ok (xs.getD i d) := by
  rw [entryAt, List.getD_eq_getElem?_getD, List.getElem?_eq_getElem h]
  rfl

theorem entryAt_last (x : α) (xs : List α) : entryAt (x :: xs) xs.length = .ok (xs.getLastD x) := by
  have hlast := List.getLast?_eq_getElem? (l := x :: xs)
  rw [List.getLast?_cons] at hlast
  rw [entryAt, List.getLastD_eq_getLast?]
  show (match (x :: xs)[(x :: xs).length - 1]? with
    | some x => Except.ok x
    | none => Except.error Abort.outOfBounds) = _
  rw [← hlast]

theorem entryAt_set_of_ne (hij : i ≠ j) (x : α) : entryAt (xs.set i x) j = entryAt xs j := by
  rw [entryAt, entryAt, List.getElem?_set_ne hij]

theorem partAt_eq (hij : i ≤ j) (hj : j ≤ xs.length) : partAt xs i j = .ok ((xs.take j).drop i) :=
  if_pos ⟨hij, hj⟩

theorem partAt_zero (hj : j ≤ xs.length) : partAt xs 0 j = .ok (xs.take j) := by
  rw [partAt_eq (Nat.zero_le j) hj, List.drop_zero]

theorem replacedAt_eq (h : i < xs.length) (x : α) : replacedAt xs i x = .ok (xs.set i x) :=
  if_pos h

end Lists

@[simp] theorem ok_bind {ε α β : Type} (a : α) (f : α → Except ε β) : (Except.ok a >>= f) = f a := rfl

theorem Abort.ofFault_bind {α β : Type} (x : Except Fault α) (f : α → Except Fault β) :
    ofFault (x >>= f) = ofFault x >>= fun a => ofFault (f a) := by
  cases x <;> rfl

/-! ## Running work -/

namespace InPlace

variable {σ τ ε α β : Type}

/-- The result of work on a state, with all that was written. -/
def on (x : InPlace σ ε α) (s : σ) : Except Abort (Except ε α × σ) :=
  x.run.run s

/-- Works on a part of the state, and writes it back whatever comes of it. -/
def onPart (x : InPlace τ ε α) (part : τ) (whole : τ → σ) : InPlace σ ε α :=
  ExceptT.mk fun _ => do
    let (a, t) ← x.on part
    return (a, whole t)

/-- A computation without a state of its own. -/
def ofChecked (x : Checked ε α) : InPlace σ ε α :=
  ExceptT.mk (liftM (Abort.ofFault x.run))

@[simp] theorem on_get_bind (f : σ → InPlace σ ε α) (s : σ) : (get >>= f).on s = (f s).on s := rfl

@[simp] theorem on_lift_bind (x : Except Abort α) (f : α → InPlace σ ε β) (s : σ) :
    ((liftM x : InPlace σ ε α) >>= f).on s = x >>= fun a => (f a).on s := by
  cases x <;> rfl

@[simp] theorem on_liftError_bind (x : Except ε α) (f : α → InPlace σ ε β) (s : σ) :
    ((liftM x : InPlace σ ε α) >>= f).on s = match x with
      | .ok a => (f a).on s
      | .error e => .ok (.error e, s) := by
  cases x <;> rfl

theorem on_bind (x : InPlace σ ε α) (f : α → InPlace σ ε β) (s : σ) :
    (x >>= f).on s = (do
      match ← x.on s with
      | (.ok a, s) => (f a).on s
      | (.error e, s) => .ok (.error e, s)) := by
  show (x.run.run s >>= fun b => _) = _
  rw [on]
  match x.run.run s with
  | .error a => rfl
  | .ok (.ok a, s) => rfl
  | .ok (.error e, s) => rfl

end InPlace

/-! ## Doing the same -/

section Does

variable {σ τ ε δ α β : Type}

/-- The work of a computation that gives a new state: in case of an error the state stays. -/
def Checked.onto (y : Checked ε (σ × α)) (s : σ) : Except Abort (Except ε α × σ) :=
  match y.run with
  | .error f => .error (.fault f)
  | .ok (.error e) => .ok (.error e, s)
  | .ok (.ok (s, a)) => .ok (.ok a, s)

@[simp] theorem Checked.onto_lift_bind (x : Except Fault α) (f : α → Checked ε (σ × β)) (s : σ) :
    ((liftM x : Checked ε α) >>= f).onto s = Abort.ofFault x >>= fun a => (f a).onto s := by
  cases x <;> rfl

@[simp] theorem Checked.onto_liftError_bind (x : Except ε α) (f : α → Checked ε (σ × β)) (s : σ) :
    ((liftM x : Checked ε α) >>= f).onto s = match x with
      | .ok a => (f a).onto s
      | .error e => .ok (.error e, s) := by
  cases x <;> rfl

/-- Work that does what a computation says that gives a new state. -/
def InPlace.Does (x : InPlace σ ε α) (y : σ → Checked ε (σ × α)) : Prop :=
  ∀ s, x.on s = (y s).onto s

theorem InPlace.Does.of_eq {x : InPlace σ ε α} {y : σ → Checked ε (σ × α)}
    (h : ∀ s, x.on s = (y s).onto s) : x.Does y := h

theorem InPlace.Does.on_eq {x : InPlace σ ε α} {y : σ → Checked ε (σ × α)} (h : x.Does y) (s : σ) :
    x.on s = (y s).onto s := h s

theorem InPlace.Does.of_except {x : InPlace σ ε α} {y : σ → Except ε (σ × α)}
    (h : ∀ s, x.on s = match y s with
      | .ok (s, a) => .ok (.ok a, s)
      | .error e => .ok (.error e, s)) : x.Does fun s => liftM (y s) := by
  refine .of_eq fun s => ?_
  rw [h s]
  cases y s <;> rfl

theorem InPlace.Does.onPart {x : InPlace τ ε α} {y : τ → Checked ε (τ × α)} (h : x.Does y) {part : τ}
    {whole : τ → σ} {s : σ} (hs : whole part = s) :
    (x.onPart part whole).on s = Checked.onto (do
      let (t, a) ← y part
      return (whole t, a)) s := by
  show (x.on part >>= fun b => _) = _
  rw [h part]
  subst hs
  match y part with
  | .error f => rfl
  | .ok (.error e) => rfl
  | .ok (.ok (t, a)) => rfl

theorem InPlace.ofChecked_does (y : σ → Checked ε α) :
    InPlace.Does (do InPlace.ofChecked (y (← get))) fun s => do
      let a ← y s
      return (s, a) := by
  refine .of_eq fun s => ?_
  rw [InPlace.on_get_bind]
  match y s with
  | .error f => rfl
  | .ok (.error e) => rfl
  | .ok (.ok a) => rfl

theorem InPlace.Does.replace {x : InPlace σ ε α} {y : σ → Checked ε (σ × α)} (h : x.Does y) (b : β) :
    InPlace.Does (do let _ ← x; return b) fun s => do
      let (s, _) ← y s
      return (s, b) := by
  refine .of_eq fun s => ?_
  rw [InPlace.on_bind, h.on_eq]
  match y s with
  | .error f => rfl
  | .ok (.error e) => rfl
  | .ok (.ok (s, a)) => rfl

theorem InPlace.Does.adapt {x : InPlace σ ε α} {y : σ → Checked ε (σ × α)} (h : x.Does y) (f : ε → δ) :
    InPlace.Does (ExceptT.adapt f x) fun s => ExceptT.adapt f (y s) := by
  refine .of_eq fun s => ?_
  show ((fun a => (a.1.mapError f, a.2)) <$> x.on s) = _
  rw [h s]
  match y s with
  | .error f => rfl
  | .ok (.error e) => rfl
  | .ok (.ok (t, a)) => rfl

theorem InPlace.Does.of_error {x : InPlace σ ε α} {y : σ → Checked ε (σ × α)} (h : x.Does y)
    {s s' : σ} {e : ε} (herror : x.on s = .ok (.error e, s')) : s' = s := by
  rw [h s] at herror
  unfold Checked.onto at herror
  split at herror <;> cases herror
  rfl

end Does

/-! ## Errors and faults -/

section Errors

variable {ε α β : Type} {e : ε} {f : Fault}

theorem exists_of_bind_eq_ok {x : Except ε α} {g : α → Except ε β} {b : β} (h : x >>= g = .ok b) :
    ∃ a, x = .ok a ∧ g a = .ok b := by
  cases x with
  | error e => cases h
  | ok a => exact ⟨a, rfl, h⟩

theorem exists_of_map_eq_ok {x : Except ε α} {g : α → β} {b : β} (h : x.map g = .ok b) :
    ∃ a, x = .ok a ∧ g a = b := by
  cases x with
  | error e => cases h
  | ok a => exact ⟨a, rfl, Except.ok.inj h⟩

theorem bind_eq_error_iff (x : Except ε α) (g : α → Except ε β) :
    x >>= g = .error e ↔ x = .error e ∨ ∃ a, x = .ok a ∧ g a = .error e := by
  cases x with
  | error e' =>
    show Except.error e' = Except.error e ↔ _
    simp only [Except.error.injEq, reduceCtorEq, false_and, exists_false, or_false]
  | ok a =>
    show g a = Except.error e ↔ _
    simp only [reduceCtorEq, Except.ok.injEq, exists_eq_left', false_or]

theorem bind_eq_error_iff_of_ok {x : Except ε α} {g : α → Except ε β} (hg : ∀ a, ∃ b, g a = .ok b) :
    x >>= g = .error e ↔ x = .error e := by
  rw [bind_eq_error_iff]
  refine or_iff_left ?_
  rintro ⟨a, -, h⟩
  obtain ⟨b, hb⟩ := hg a
  rw [hb] at h
  cases h

theorem bind_pure_eq_error_iff (x : Except ε α) (g : α → β) :
    (x >>= fun a => pure (g a)) = .error e ↔ x = .error e :=
  bind_eq_error_iff_of_ok fun _ => ⟨_, rfl⟩

theorem map_eq_error_iff (x : Except ε α) (g : α → β) :
    x.map g = .error e ↔ x = .error e := by
  cases x <;> simp [Except.map]

theorem foldlM_eq_error_iff {σ : Type} (g : σ → α → Except ε σ) (s : σ) (xs : List α) :
    xs.foldlM g s = .error e ↔ ∃ done x rest t, xs = done ++ x :: rest ∧
      done.foldlM g s = .ok t ∧ g t x = .error e := by
  induction xs generalizing s with
  | nil =>
    constructor
    · intro h
      cases h
    · rintro ⟨done, x, rest, t, h, -⟩
      cases done <;> cases h
  | cons x xs ih =>
    rw [List.foldlM_cons, bind_eq_error_iff]
    constructor
    · rintro (herror | ⟨t, ht, hrest⟩)
      · exact ⟨[], x, xs, s, rfl, rfl, herror⟩
      · obtain ⟨done, last, rest, t', rfl, hdone, herror⟩ := (ih t).mp hrest
        refine ⟨x :: done, last, rest, t', rfl, ?_, herror⟩
        rw [List.foldlM_cons, ht]
        exact hdone
    · rintro ⟨done, last, rest, t', heq, hdone, herror⟩
      cases done with
      | nil =>
        cases heq
        cases hdone
        exact .inl herror
      | cons first done =>
        cases heq
        rw [List.foldlM_cons] at hdone
        cases ht : g s x with
        | error e' =>
          rw [ht] at hdone
          cases hdone
        | ok t =>
          rw [ht] at hdone
          exact .inr ⟨t, rfl, (ih t).mpr ⟨done, last, rest, t', rfl, hdone, herror⟩⟩

theorem Checked.bind_pure_run_eq_error_iff (x : Checked ε α) (g : α → β) :
    (x >>= fun a => pure (g a)).run = .error f ↔ x.run = .error f := by
  show (x.run >>= ExceptT.bindCont fun a => pure (g a)) = _ ↔ _
  rw [bind_eq_error_iff]
  refine or_iff_left ?_
  rintro ⟨r, -, h⟩
  cases r <;> cases h

theorem Checked.lift_bind_pure_run_eq_error_iff (x : Except Fault α) (g : α → β) :
    ((liftM x : Checked ε α) >>= fun a => pure (g a)).run = .error f ↔ x = .error f := by
  rw [bind_pure_run_eq_error_iff]
  cases x with
  | error e => exact ⟨fun h => by cases h; rfl, fun h => by cases h; rfl⟩
  | ok a => exact iff_of_false (fun h => by cases h) (fun h => by cases h)

theorem Checked.liftError_run_ne_error (x : Except ε α) : (liftM x : Checked ε α).run ≠ .error f := by
  intro h
  cases h

theorem Checked.liftError_bind_run_eq_error_iff (x : Except ε α) (g : α → Checked ε β) :
    ((liftM x : Checked ε α) >>= g).run = .error f ↔ ∃ a, x = .ok a ∧ (g a).run = .error f := by
  cases x with
  | error e =>
    refine iff_of_false (fun h => by cases h) ?_
    rintro ⟨a, h, -⟩
    cases h
  | ok a =>
    show (g a).run = _ ↔ _
    simp only [Except.ok.injEq, exists_eq_left']

theorem Checked.liftError_bind_run_refused_iff {x : Except ε α} {g : α → Checked ε β} :
    ((liftM x : Checked ε α) >>= g).run = .ok (.error e) ↔
      x = .error e ∨ ∃ a, x = .ok a ∧ (g a).run = .ok (.error e) := by
  cases x with
  | error e' =>
    show Except.ok (Except.error e') = _ ↔ _
    simp
  | ok a =>
    show (g a).run = _ ↔ _
    simp

theorem Checked.bind_pure_run_refused_iff {x : Checked ε α} {g : α → β} :
    (x >>= fun a => pure (g a)).run = .ok (.error e) ↔ x.run = .ok (.error e) := by
  match x with
  | .error f => exact iff_of_false nofun nofun
  | .ok (.error e') => exact ⟨fun h => by cases h; rfl, fun h => by cases h; rfl⟩
  | .ok (.ok a) => exact iff_of_false nofun nofun

theorem Checked.lift_bind_pure_run_not_refused (x : Except Fault α) (g : α → β) :
    ((liftM x : Checked ε α) >>= fun a => pure (g a)).run ≠ .ok (.error e) := by
  cases x <;> exact nofun

theorem Checked.liftError_run_refused_iff {x : Except ε α} :
    (liftM x : Checked ε α).run = .ok (.error e) ↔ x = .error e := by
  cases x with
  | error e' =>
    show Except.ok (Except.error e') = _ ↔ _
    simp
  | ok a => exact iff_of_false nofun nofun

theorem Checked.exists_of_liftError_bind {x : Except ε α} {g : α → Checked ε β} {b : β}
    (h : ((liftM x : Checked ε α) >>= g).run = .ok (.ok b)) :
    ∃ a, x = .ok a ∧ (g a).run = .ok (.ok b) := by
  cases x with
  | error e => cases h
  | ok a => exact ⟨a, rfl, h⟩

theorem Checked.exists_of_lift_bind {x : Except Fault α} {g : α → Checked ε β} {b : β}
    (h : ((liftM x : Checked ε α) >>= g).run = .ok (.ok b)) :
    ∃ a, x = .ok a ∧ (g a).run = .ok (.ok b) := by
  cases x with
  | error f => cases h
  | ok a => exact ⟨a, rfl, h⟩

end Errors

end ChartTemplate
