import Mathlib
import ChartTemplate.Proofs.Template.Calls

/-!
# What calls lead to

`CallTree.Ends` says of a tree of calls what it ends in, whatever helpers answer: all that is known of
answers is that methods are refused only to helpers that lack them (`Helper.call_lacking`). What holds of all
ends holds of those that a state leads to (`Ends.of_run`).
-/

namespace ChartTemplate

variable {α β σ : Type}

/-! ## Refused methods -/

/-- What a computation is refused with. -/
def Checked.RefusedWith {ε α : Type} (P : ε → Prop) (x : Checked ε α) : Prop :=
  ∀ e, x.run = .ok (.error e) → P e

/-- Methods are refused only to helpers that lack them. -/
def HelperError.Lacking : HelperError → Prop
  | .unknownMethod h m => h.acceptsMethod m = false
  | _ => True

theorem HelperState.settle_lacking (s : HelperState σ)
    (outcome : Checked RegistryError (Registry × Value)) :
    (s.settle outcome).RefusedWith HelperError.Lacking := by
  intro e h
  cases outcome with
  | error f => cases h
  | ok result =>
    cases result with
    | ok a => cases h
    | error e' =>
      cases e' with
      | tickCount t =>
        cases h
        trivial
      | scale e' =>
        cases e' <;> cases h
        trivial
      | _ => cases h

variable [HostServices σ]

theorem HelperCall.Answers.lacking {c : HelperCall σ} {s : HelperState σ}
    {outcome : Checked HelperError (HelperState σ × Value)} (h : c.Answers s outcome) :
    outcome.RefusedWith HelperError.Lacking := by
  intro e he
  cases h with
  | unknownMethod hname =>
    cases he
    exact hname
  | notArray =>
    cases he
    trivial
  | _ => cases he

theorem HelperCall.on_lacking (c : HelperCall σ) (s : HelperState σ) :
    (c.on s).RefusedWith HelperError.Lacking := by
  rcases c.call_cases s with ⟨x, hx⟩ | hanswer
  · rw [hx.call_eq]
    exact s.settle_lacking x
  · exact hanswer.lacking

/-! ## Ends -/

namespace CallTree

/-- Every result of the calls has a property, whatever they answer; `full` if the stack may be full. -/
def Ends (full : Prop) (P : α → Prop) : CallTree α → Prop
  | done a => P a
  | outOfStack => full
  | call _ _ next => ∀ r, (∀ e, r = .error e → e.Lacking) → (next r).Ends full P

variable {full : Prop} {P : α → Prop} {Q : β → Prop} {table : Table} {zone : TimeZone}
  {t t' : CallTree α} {s u : HelperState σ}

theorem Ends.bind {f : α → CallTree β} (h : t.Ends full P) (hf : ∀ a, P a → (f a).Ends full Q) :
    (t.bind f).Ends full Q := by
  induction t with
  | done a => exact hf a h
  | outOfStack => exact h
  | call helper args next ih => exact fun r hr => ih r (h r hr)

theorem Ends.of_reaches (h : t.Ends full P) (hreach : t.Reaches table zone s t' u) : t'.Ends full P := by
  induction hreach with
  | here => exact h
  | @refused helper args next t' s u e hcall _ ih =>
    refine ih (h (.error e) ?_)
    rintro _ ⟨⟩
    exact HelperCall.on_lacking ⟨helper, args, table, s.host, zone⟩ s e hcall
  | answered _ _ ih => exact ih (h _ nofun)

/-- **A result** is one of those that calls lead to. -/
theorem Ends.of_run (h : t.Ends full P) {a : α} (hrun : t.run table zone s = .ok (a, u)) : P a := by
  obtain ⟨t', u', hreach, hend⟩ := exists_end table zone t s
  have ht' := h.of_reaches hreach
  rw [run_of_reaches hreach] at hrun
  cases hend with
  | done b =>
    cases hrun
    exact ht'
  | outOfStack => cases hrun
  | cutOff hcall =>
    rw [run_of_fault hcall] at hrun
    cases hrun

end CallTree

end ChartTemplate
