import Mathlib
import ChartTemplate.Proofs.Helper.Alike

/-!
# Reset registries

What a registry went through cannot be seen after a reset: `answers_reset` says that calls of helpers
answer as they do with the empty registry. All that is left of earlier calls are kept formats, and every
registry that calls and resets lead to keeps those that the texts give (`compiled_after`).
-/

namespace ChartTemplate

open Entries (get?)

variable {σ : Type} [HostServices σ]

/-- A call of a helper, with the table, the host and the time zone that there are at the time. -/
structure HelperCall (σ : Type) where
  helper : Helper
  args : List Value
  table : Table
  host : σ
  zone : TimeZone

/-- What is seen of a call: the host afterwards and the result, or the error. -/
abbrev HelperCall.Answer (σ : Type) := Except HelperError (σ × Value)

def HelperCall.on (c : HelperCall σ) (s : HelperState σ) : Checked HelperError (HelperState σ × Value) :=
  c.helper.call c.table s c.args c.zone

/-- Makes a call: the registry afterwards, and the answer. A call that ends the rendering leaves the
registry as it was. -/
def HelperCall.run (c : HelperCall σ) (r : Registry) : Except Fault (Registry × Answer σ) := do
  match ← (c.on ⟨r, c.host⟩).run with
  | .ok (s, v) => return (s.registry, .ok (s.host, v))
  | .error e => return (r, .error e)

/-- What happens to a registry. -/
inductive RegistryStep (σ : Type) where
  | call (c : HelperCall σ)
  | reset

namespace Registry

def step (r : Registry) : RegistryStep σ → Except Fault Registry
  | .call c => Prod.fst <$> c.run r
  | .reset => pure r.reset

def after (r : Registry) (steps : List (RegistryStep σ)) : Except Fault Registry :=
  steps.foldlM step r

/-- The answers of calls one after the other, up to one that has no result at all. -/
def answers (r : Registry) : List (HelperCall σ) → List (Except Fault (HelperCall.Answer σ))
  | [] => []
  | c :: cs =>
    match c.run r with
    | .ok (r, a) => .ok a :: answers r cs
    | .error f => [.error f]

variable {r r' : Registry}

theorem run_rel {R : Registry → Registry → Prop} {S : HelperState σ → HelperState σ → Prop}
    {c : HelperCall σ} (h : R r r')
    (hS : ∀ s s', S s s' → R s.registry s'.registry ∧ s.host = s'.host)
    (hcall : Checked.Rel (SameResult S) (c.on ⟨r, c.host⟩) (c.on ⟨r', c.host⟩)) :
    EndAlike (SameResult R) (c.run r) (c.run r') := by
  unfold HelperCall.run
  generalize c.on ⟨r, c.host⟩ = x at hcall ⊢
  generalize c.on ⟨r', c.host⟩ = y at hcall ⊢
  cases hcall with
  | fault f => exact .fault f
  | error e => exact .ok ⟨h, rfl⟩
  | @ok a b hab =>
    obtain ⟨hstate, hv⟩ := hab
    obtain ⟨hregistry, hhost⟩ := hS _ _ hstate
    refine .ok ⟨hregistry, ?_⟩
    show Except.ok (a.1.host, a.2) = Except.ok (b.1.host, b.2)
    rw [hhost, hv]

/-- **One call** answers the same with registries that are alike, and leaves them alike. -/
theorem run_alike (h : r.Alike r') (c : HelperCall σ) :
    EndAlike (SameResult Alike) (c.run r) (c.run r') := by
  have hstate : HelperState.Alike ⟨r, c.host⟩ ⟨r', c.host⟩ := ⟨h, rfl⟩
  exact run_rel h (fun s s' hs => ⟨hs.registry, hs.host⟩)
    (call_alike hstate c.helper c.table c.args c.zone)

theorem answers_alike (h : r.Alike r') (calls : List (HelperCall σ)) :
    r.answers calls = r'.answers calls := by
  induction calls generalizing r r' with
  | nil => rfl
  | cons c cs ih =>
    have hrun := run_alike h c
    rw [answers, answers]
    generalize c.run r = x at hrun ⊢
    generalize c.run r' = y at hrun ⊢
    cases hrun with
    | fault f => rfl
    | @ok a b hab =>
      obtain ⟨halike, hanswer⟩ := hab
      dsimp only
      rw [hanswer, ih halike]

theorem compiled_step (h : r.Compiled) {step : RegistryStep σ} (hstep : r.step step = .ok r') :
    r'.Compiled := by
  cases step with
  | reset =>
    obtain rfl := Except.ok.inj hstep
    exact h.alike_reset.compiled
  | call c =>
    have hrun := run_alike h.alike_self c
    rw [Registry.step] at hstep
    generalize c.run r = x at hrun hstep
    cases hrun with
    | fault f => cases hstep
    | ok hab =>
      obtain rfl := Except.ok.inj hstep
      exact hab.1.compiled

theorem exists_run_of_step {c : HelperCall σ} (h : r.step (.call c) = .ok r') :
    ∃ a, c.run r = .ok (r', a) := by
  rw [step] at h
  cases hrun : c.run r with
  | error f => rw [hrun] at h; cases h
  | ok b =>
    rw [hrun] at h
    cases h
    exact ⟨b.2, rfl⟩

theorem exists_of_after_cons {step : RegistryStep σ} {steps : List (RegistryStep σ)} {s : Registry}
    (h : r.after (step :: steps) = .ok s) : ∃ r', r.step step = .ok r' ∧ r'.after steps = .ok s := by
  rw [after, List.foldlM_cons] at h
  cases hstep : r.step step with
  | error f => rw [hstep] at h; cases h
  | ok r' =>
    rw [hstep] at h
    exact ⟨r', rfl, h⟩

/-- What each step keeps, all steps keep. -/
theorem kept_after {P : Registry → Prop}
    (hkept : ∀ (r r' : Registry) (step : RegistryStep σ), P r → r.step step = .ok r' → P r')
    (h : P r) {steps : List (RegistryStep σ)} (hafter : r.after steps = .ok r') : P r' := by
  induction steps generalizing r with
  | nil =>
    obtain rfl := Except.ok.inj hafter
    exact h
  | cons step steps ih =>
    obtain ⟨s, hstep, hrest⟩ := exists_of_after_cons hafter
    exact ih (hkept _ _ _ h hstep) hrest

theorem compiled_after (h : r.Compiled) {steps : List (RegistryStep σ)}
    (hafter : r.after steps = .ok r') : r'.Compiled :=
  kept_after (fun _ _ _ h hstep => compiled_step h hstep) h hafter

/-- **A reset registry is a new one**: whatever calls and resets came before, all calls after a reset
answer as with the empty registry. What is kept at any time is what the texts give. -/
theorem answers_reset {steps : List (RegistryStep σ)} (h : empty.after steps = .ok r) :
    r.Compiled ∧ ∀ calls : List (HelperCall σ), r.reset.answers calls = empty.answers calls := by
  have hcompiled := compiled_after compiled_empty h
  exact ⟨hcompiled, answers_alike hcompiled.alike_reset⟩

def yearCall : HelperCall Palette :=
  ⟨.utcFormat, [.date ⟨0, 0⟩, .text "%Y"], .empty, .ofColors [], .utc⟩

/-- Steps that leave a variable, and a pattern from before a reset. -/
def usedSteps : List (RegistryStep Palette) :=
  [.call yearCall, .call ⟨.scale .ordinal, [.text "x"], .empty, .ofColors [], .utc⟩, .reset,
    .call ⟨.setVariable, [.text "w", .bool true], .empty, .ofColors [], .utc⟩]

/-- A registry that keeps a pattern answers a call that uses it as the empty registry does. -/
theorem answers_reset_used :
    ∃ r, empty.after usedSteps = .ok r ∧ (get? r.utcPatterns "%Y").isSome = true ∧
      (r.Compiled ∧ ∀ calls : List (HelperCall Palette), r.reset.answers calls = empty.answers calls) ∧
      r.reset.answers [yearCall] = [.ok (.ok (.ofColors [], .text "1970"))] := by
  obtain ⟨r, hr, hkept⟩ : ∃ r, empty.after usedSteps = .ok r ∧
    (get? r.utcPatterns "%Y").isSome = true := ⟨_, rfl, rfl⟩
  have hreset := answers_reset hr
  refine ⟨r, hr, hkept, hreset, (hreset.2 [yearCall]).trans ?_⟩
  cbv

end Registry

end ChartTemplate
