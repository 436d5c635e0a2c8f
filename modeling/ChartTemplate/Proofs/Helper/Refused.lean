import Mathlib
import ChartTemplate.Proofs.InPlace.Call

/-!
# Refused calls

A call of a helper that fails, or whose operation is refused, leaves the registry and the host as
they were, although operations write to what they find. Every axis that calls lead to has tick arguments
that were checked, so that its count is always the one they ask for. This follows from the list of
effects, of which only two change axes.
-/

namespace ChartTemplate

open Entries (get?)

/-! ## Checked tick arguments -/

namespace Axis

/-- The tick arguments of an axis pass the check. -/
def Counted (a : Axis) : Prop :=
  tickCount (a.tickArguments.headD .undefined) = .ok a.count

theorem counted_iff {a : Axis} : a.Counted ↔ checkCount a.tickArguments = .ok ⟨⟩ := by
  unfold Counted count checkCount
  cases tickCount (a.tickArguments.headD .undefined) with
  | ok n => exact ⟨fun _ => rfl, fun _ => rfl⟩
  | error e => exact ⟨fun h => (nomatch h), fun h => (nomatch h)⟩

theorem counted_make (orient : Orient) (scale : String) : (make orient scale).Counted := by
  have hten : tickCount .undefined = .ok 10 := by
    show (if (10 : Float).isNaN || ((10 : Float).isFinite && 10 ≤ maxTickCount) then
      Except.ok (10 : Float) else Except.error ⟨10⟩) = .ok 10
    exact if_pos (by decide)
  refine counted_iff.mpr ?_
  show checkCount [] = .ok ⟨⟩
  unfold checkCount
  rw [List.headD_nil, hten]
  rfl

theorem Counted.configure {a a' : Axis} (h : a.Counted) {m : AxisMethod} {args : List Value}
    (hconfigure : a.configure m args = .ok a') : a'.Counted := by
  unfold Axis.configure at hconfigure
  cases m with
  | ticks | tickArguments =>
    obtain ⟨⟨⟩, hcheck, hset⟩ := exists_of_bind_eq_ok hconfigure
    cases hset
    exact counted_iff.mpr hcheck
  | tickFormat =>
    dsimp only at hconfigure
    split at hconfigure
    · cases hconfigure
      exact h
    · split at hconfigure
      · cases hconfigure
        exact h
      · cases hconfigure
  | _ =>
    cases hconfigure
    exact h

end Axis

variable {σ : Type}

namespace Registry

variable {r r' : Registry}

/-- The tick arguments of all axes pass the check. -/
def Counted (r : Registry) : Prop :=
  KeptBy (fun _ a => a.Counted) r.axes

theorem Counted.effect (h : r.Counted) {c : HelperCall σ} (heffect : c.Effect r r') : r'.Counted := by
  unfold Counted
  cases heffect with
  | formats _ haxes _ => rwa [haxes]
  | addAxis orient scale _ => exact KeptBy.insert h (Axis.counted_make orient scale)
  | configureAxis _ ha hconfigure => exact KeptBy.insert h ((h _ _ ha).configure hconfigure)
  | resetAxes _ => exact keptBy_nil _
  | _ => exact h

theorem Counted.step [HostServices σ] (h : r.Counted) {step : RegistryStep σ} (hstep : r.step step = .ok r') :
    r'.Counted := by
  cases step with
  | reset =>
    cases hstep
    exact keptBy_nil _
  | call c =>
    obtain ⟨a, hrun⟩ := exists_run_of_step hstep
    exact h.effect (HelperCall.effect_of_run hrun)

end Registry

/-! ## Refused operations -/

namespace Helper

variable [HostServices σ] {h : Helper} {args : List Value} {zone : TimeZone} {op : InPlace Registry RegistryError Value}

theorem on_work_of_refused (hop : h.operation args zone = .ok (some op)) (table : Table) {s : HelperState σ}
    {e : RegistryError} (hrefused : op.on s.registry = .ok (.error e, s.registry)) :
    ∃ a, (h.work table args zone).on s = .ok (a, s) := by
  -- a refusal is put into words after the operation, from the state that the operation left
  have hwork : (h.work table args zone).on s = (settleWork op).on s := by
    unfold work
    rw [hop]
    rfl
  rw [hwork, settleWork, InPlace.on_get_bind, InPlace.on_lift_bind, hrefused]
  cases e with
  | scale e => cases e <;> exact ⟨_, rfl⟩
  | _ => exact ⟨_, rfl⟩

end Helper

namespace Registry

variable {r : Registry}

/-- **A failed call changes nothing.** With any registry that calls lead to, a call does what the work
on the state does; if it ends with an error, or its operation on the registry is refused, registry and
host are as before. In every such registry the tick arguments of axes pass the check. -/
theorem refused_keeps [HostServices σ] {steps : List (RegistryStep σ)} (h : empty.after steps = .ok r) :
    (∀ c : HelperCall σ,
      (c.helper.work c.table c.args c.zone).on ⟨r, c.host⟩ =
        (c.on ⟨r, c.host⟩).onto ⟨r, c.host⟩ ∧
      (∀ e s, (c.helper.work c.table c.args c.zone).on ⟨r, c.host⟩ = .ok (.error e, s) →
        s = ⟨r, c.host⟩) ∧
      ∀ op e r', c.helper.operation c.args c.zone = .ok (some op) → op.on r = .ok (.error e, r') →
        r' = r ∧ ∃ a, (c.helper.work c.table c.args c.zone).on ⟨r, c.host⟩ = .ok (a, ⟨r, c.host⟩)) ∧
    ∀ id a, get? r.axes id = some a →
      tickCount (a.tickArguments.headD .undefined) = .ok a.count := by
  have hcounted : r.Counted :=
    kept_after (r := empty) (fun _ _ _ h hstep => Counted.step h hstep) (keptBy_nil _) h
  refine ⟨fun c => ⟨(Helper.work_does c.helper c.table c.args c.zone).on_eq _, fun e s herror => ?_,
    fun op e r' hop hrefused => ?_⟩, hcounted⟩
  · exact (Helper.work_does c.helper c.table c.args c.zone).of_error herror
  · obtain ⟨y, hy, -⟩ := Helper.operation_does (σ := σ) hop
    have hr : r' = r := hy.of_error hrefused
    subst hr
    exact ⟨rfl, Helper.on_work_of_refused hop c.table hrefused⟩

/-- Calls that make an ordinal scale and an axis with half a dozen ticks. -/
def axisSteps : List (RegistryStep Palette) :=
  [.call ⟨.scale .ordinal, [.text "c", .array [.text "a"]], .empty, .ofColors [], .utc⟩,
    .call ⟨.axis .left, [.text "y", .text "c"], .empty, .ofColors [], .utc⟩,
    .call ⟨.setupAxis, [.text "y", .text "ticks", .number 6], .empty, .ofColors [], .utc⟩]

/-- A call of a method that ordinal scales do not have. -/
def clampCall : HelperCall Palette :=
  ⟨.setupScale, [.text "c", .text "clamp", .bool true], .empty, .ofColors [], .utc⟩

/-- The refused method is answered with a text, and nothing has changed. -/
theorem refused_keeps_clamp :
    ∃ r op, empty.after axisSteps = .ok r ∧ clampCall.helper.operation clampCall.args clampCall.zone = .ok (some op) ∧
      op.on r = .ok (.error (.scale (.unsupported .clamp .ordinal)), r) ∧
      (∃ a, (clampCall.helper.work clampCall.table clampCall.args clampCall.zone).on ⟨r, clampCall.host⟩ =
        .ok (a, ⟨r, clampCall.host⟩)) ∧
      (∃ a, get? r.axes "y" = some a ∧
        tickCount (a.tickArguments.headD .undefined) = .ok a.count) := by
  obtain ⟨r, op, a, hr, hop, hrefused, ha⟩ : ∃ r op a, empty.after axisSteps = .ok r ∧
      clampCall.helper.operation clampCall.args clampCall.zone = .ok (some op) ∧
      op.on r = .ok (.error (.scale (.unsupported .clamp .ordinal)), r) ∧
      get? r.axes "y" = some a := ⟨_, _, _, rfl, rfl, rfl, rfl⟩
  obtain ⟨hcalls, hcounted⟩ := refused_keeps hr
  obtain ⟨-, -, hoperation⟩ := hcalls clampCall
  exact ⟨r, op, hr, hop, hrefused, (hoperation op _ _ hop hrefused).2, a, ha, hcounted "y" a ha⟩

end Registry

end ChartTemplate
