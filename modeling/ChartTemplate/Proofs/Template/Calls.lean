import Mathlib
import ChartTemplate.Proofs.Helper.CutOff
import ChartTemplate.Template.Render

/-!
# Calls that are reached

From a state of helpers, a tree of calls leads through the trees that are left after each call
(`CallTree.Reaches`), and ends where all of these do: in a result, in a full stack, or at a call that is cut
off (`CallTree.exists_end`). So it is cut off exactly if a call that it reaches is, or the stack is full
(`CallTree.run_eq_error_iff`).
-/

namespace ChartTemplate

variable {α β σ : Type} [HostServices σ]

namespace CallTree

/-- The trees that are left on the way from a state, each with the state of the time. -/
inductive Reaches (table : Table) (zone : TimeZone) :
    CallTree α → HelperState σ → CallTree α → HelperState σ → Prop
  | here {t : CallTree α} {s : HelperState σ} : Reaches table zone t s t s
  | refused {h : Helper} {args : List Value} {next : Except HelperError Value → CallTree α}
      {t : CallTree α} {s u : HelperState σ} {e : HelperError}
      (hcall : (h.call table s args zone).run = .ok (.error e))
      (hnext : Reaches table zone (next (.error e)) s t u) : Reaches table zone (call h args next) s t u
  | answered {h : Helper} {args : List Value} {next : Except HelperError Value → CallTree α}
      {t : CallTree α} {s s' u : HelperState σ} {v : Value}
      (hcall : (h.call table s args zone).run = .ok (.ok (s', v)))
      (hnext : Reaches table zone (next (.ok v)) s' t u) : Reaches table zone (call h args next) s t u

variable {table : Table} {zone : TimeZone} {s u : HelperState σ}

theorem run_bind (t : CallTree α) (f : α → CallTree β) (s : HelperState σ) :
    (t.bind f).run table zone s = t.run table zone s >>= fun r => (f r.1).run table zone r.2 := by
  induction t generalizing s with
  | done a => rfl
  | outOfStack => rfl
  | call h args next ih =>
    rw [bind, run, run]
    match (h.call table s args zone).run with
    | .error f => rfl
    | .ok (.error e) => exact ih _ s
    | .ok (.ok (s', v)) => exact ih _ s'

theorem run_of_refused {h : Helper} {args : List Value} {next : Except HelperError Value → CallTree α}
    {e : HelperError} (hcall : (h.call table s args zone).run = .ok (.error e)) :
    (call h args next).run table zone s = (next (.error e)).run table zone s := by
  rw [run, hcall]
  rfl

theorem run_of_answered {h : Helper} {args : List Value} {next : Except HelperError Value → CallTree α}
    {v : Value} (hcall : (h.call table s args zone).run = .ok (.ok (u, v))) :
    (call h args next).run table zone s = (next (.ok v)).run table zone u := by
  rw [run, hcall]
  rfl

theorem run_of_fault {h : Helper} {args : List Value} {next : Except HelperError Value → CallTree α}
    {f : Fault} (hcall : (h.call table s args zone).run = .error f) :
    (call h args next).run table zone s = .error f := by
  rw [run, hcall]
  rfl

/-- A tree does what is left of it does. -/
theorem run_of_reaches {t t' : CallTree α} (h : t.Reaches table zone s t' u) :
    t.run table zone s = t'.run table zone u := by
  induction h with
  | here => rfl
  | refused hcall _ ih => rw [run_of_refused hcall, ih]
  | answered hcall _ ih => rw [run_of_answered hcall, ih]

theorem left_of_reaches {t t' : CallTree α} (h : t.Reaches table zone s t' u) :
    t.left table zone s = t'.left table zone u := by
  induction h with
  | here => rfl
  | refused hcall _ ih =>
    rw [left, hcall]
    exact ih
  | answered hcall _ ih =>
    rw [left, hcall]
    exact ih

/-- Where a tree of calls ends. -/
inductive IsEnd (table : Table) (zone : TimeZone) : CallTree α → HelperState σ → Prop
  | done (a : α) (u : HelperState σ) : IsEnd table zone (done a) u
  | outOfStack (u : HelperState σ) : IsEnd table zone outOfStack u
  | cutOff {h : Helper} {args : List Value} {next : Except HelperError Value → CallTree α}
      {u : HelperState σ} {f : Fault} (hcall : (h.call table u args zone).run = .error f) :
      IsEnd table zone (call h args next) u

theorem exists_end (table : Table) (zone : TimeZone) (t : CallTree α) (s : HelperState σ) :
    ∃ t' u, t.Reaches table zone s t' u ∧ t'.IsEnd table zone u := by
  induction t generalizing s with
  | done a => exact ⟨_, s, .here, .done a s⟩
  | outOfStack => exact ⟨_, s, .here, .outOfStack s⟩
  | call h args next ih =>
    match hcall : (h.call table s args zone).run with
    | .error f => exact ⟨_, s, .here, .cutOff hcall⟩
    | .ok (.error e) =>
      obtain ⟨t', u, hreach, hend⟩ := ih (.error e) s
      exact ⟨t', u, .refused hcall hreach, hend⟩
    | .ok (.ok (s', v)) =>
      obtain ⟨t', u, hreach, hend⟩ := ih (.ok v) s'
      exact ⟨t', u, .answered hcall hreach, hend⟩

/-- What is left of calls that have a result is the state that comes with it. -/
theorem left_of_run {t : CallTree α} {a : α} (h : t.run table zone s = .ok (a, u)) :
    t.left table zone s = u := by
  obtain ⟨t', u', hreach, hend⟩ := exists_end table zone t s
  rw [run_of_reaches hreach] at h
  rw [left_of_reaches hreach]
  cases hend with
  | done a =>
    cases h
    rfl
  | outOfStack => cases h
  | cutOff hcall =>
    rw [run_of_fault hcall] at h
    cases h

/-- **A tree of calls** is cut off exactly if it reaches a call that is, or the stack is full. -/
theorem run_eq_error_iff (t : CallTree α) (s : HelperState σ) :
    (∃ f, t.run table zone s = .error f) ↔
      (∃ h args next u, t.Reaches table zone s (call h args next) u ∧
        (HelperCall.mk h args table u.host zone).CutOff u.registry) ∨
      ∃ u, t.Reaches table zone s outOfStack u := by
  constructor
  · rintro ⟨f, hf⟩
    obtain ⟨t', u, hreach, hend⟩ := exists_end table zone t s
    cases hend with
    | done a =>
      rw [run_of_reaches hreach] at hf
      cases hf
    | outOfStack => exact .inr ⟨u, hreach⟩
    | cutOff hcall => exact .inl ⟨_, _, _, u, hreach, HelperCall.cutOff_of_call_error hcall⟩
  · rintro (⟨h, args, next, u, hreach, hcut⟩ | ⟨u, hreach⟩)
    · obtain ⟨f, hf⟩ := HelperCall.call_error_of_cutOff (s := u) hcut
      exact ⟨f, (run_of_reaches hreach).trans (run_of_fault hf)⟩
    · exact ⟨.fullStack, run_of_reaches hreach⟩

end CallTree

end ChartTemplate
