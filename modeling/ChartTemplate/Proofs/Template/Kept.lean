import ChartTemplate.Proofs.Helper.Alike
import ChartTemplate.Proofs.Template.Calls

/-!
# Renderings and kept formats

A rendering works on a state of helpers, which keeps formats of earlier renderings. No call can tell states
apart that differ in these alone, so no tree of calls can: it ends alike in them (`CallTree.run_alike`), and
leaves them alike even if it is cut off (`CallTree.left_alike`). Of a host, calls keep what it keeps when it
is asked for colors (`CallTree.left_host`).
-/

namespace ChartTemplate

variable {α σ : Type} [HostServices σ]

/-- The same outcome, in states that are related. -/
def SameEnd (R : σ → σ → Prop) (a b : α × σ) : Prop :=
  a.1 = b.1 ∧ R a.2 b.2

omit [HostServices σ] in
/-- Operations on the registry do nothing to the host. -/
theorem HelperState.settle_host (s : HelperState σ) (x : Checked RegistryError (Registry × Value)) :
    (s.settle x).Yields fun b => b.1.host = s.host := by
  intro b hb
  match x with
  | .error f => cases hb
  | .ok (.ok a) =>
    cases hb
    rfl
  | .ok (.error e) =>
    cases e with
    | tickCount e => cases hb
    | scale e =>
      cases e <;> cases hb
      rfl
    | _ =>
      cases hb
      rfl

omit [HostServices σ] in
theorem Helper.left_host (h : Helper) (s : HelperState σ) (args : List Value) :
    (h.left s args).host = s.host := by
  cases h <;> rfl

namespace HelperCall

variable {P : σ → Prop}

theorem call_host (hP : ∀ host key, P host → P (HostServices.color host key).1) (c : HelperCall σ)
    {s : HelperState σ} (h : P s.host) : (c.on s).Yields fun b => P b.1.host := by
  rcases c.call_cases s with ⟨x, hx⟩ | hanswer
  · rw [hx.call_eq]
    intro b hb
    rwa [s.settle_host x b hb]
  · generalize c.on s = y at hanswer
    cases hanswer with
    | color key v => exact .pure (hP _ key h)
    | notArray | unknownMethod => exact .throw _
    | _ => exact .pure h

end HelperCall

namespace CallTree

variable {table : Table} {zone : TimeZone}

/-- **Calls that are chosen alike** end alike. -/
theorem run_alike (t : CallTree α) (table : Table) (zone : TimeZone) {s s' : HelperState σ}
    (h : s.Alike s') :
    EndAlike (SameEnd HelperState.Alike) (t.run table zone s) (t.run table zone s') := by
  induction t generalizing s s' with
  | done a => exact .ok ⟨rfl, h⟩
  | outOfStack => exact .fault _
  | call helper args next ih =>
    have hcall := call_alike h helper table args zone
    rw [run, run]
    generalize helper.call table s args zone = x at hcall
    generalize helper.call table s' args zone = y at hcall
    cases hcall with
    | fault f => exact .fault f
    | error e => exact ih (.error e) h
    | @ok a b hab =>
      obtain ⟨u, v⟩ := a
      obtain ⟨u', v'⟩ := b
      obtain ⟨hu, rfl⟩ := hab
      exact ih (.ok v) hu

/-- **Calls that are cut off** leave states alike, too. -/
theorem left_alike (t : CallTree α) (table : Table) (zone : TimeZone) {s s' : HelperState σ}
    (h : s.Alike s') : (t.left table zone s).Alike (t.left table zone s') := by
  induction t generalizing s s' with
  | done a => exact h
  | outOfStack => exact h
  | call helper args next ih =>
    have hcall := call_alike h helper table args zone
    rw [left, left]
    generalize helper.call table s args zone = x at hcall
    generalize helper.call table s' args zone = y at hcall
    cases hcall with
    | fault f => exact ChartTemplate.left_alike h helper args
    | error e => exact ih (.error e) h
    | @ok a b hab =>
      obtain ⟨u, v⟩ := a
      obtain ⟨u', v'⟩ := b
      obtain ⟨hu, rfl⟩ := hab
      exact ih (.ok v) hu

theorem left_host {P : σ → Prop} (hP : ∀ host key, P host → P (HostServices.color host key).1)
    (t : CallTree α) {s : HelperState σ} (h : P s.host) : P (t.left table zone s).host := by
  induction t generalizing s with
  | done a => exact h
  | outOfStack => exact h
  | call helper args next ih =>
    have hcall := HelperCall.call_host hP ⟨helper, args, table, s.host, zone⟩ h
    rw [left]
    cases hrun : (helper.call table s args zone).run with
    | error f =>
      dsimp only
      rwa [Helper.left_host]
    | ok r =>
      cases r with
      | error e => exact ih (.error e) h
      | ok r => exact ih (.ok r.2) (hcall r hrun)

end CallTree

end ChartTemplate
