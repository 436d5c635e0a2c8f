import Mathlib
import ChartTemplate.Proofs.InPlace.Registry

/-!
# Calls of helpers in place

`Helper.work` calls a helper on the state of a rendering as it is. Helpers that work on the registry do
so by an operation (`Helper.operation`), whose errors become texts or end the rendering. As no operation
writes before it is refused (`Helper.operation_does`), work on the state and the call that runs are the
same (`Helper.work_does`).
-/

namespace ChartTemplate

open Entries (get?)

variable {σ : Type} [HostServices σ]

namespace Helper

/-- The operation on the registry that a call stands for, if there is one. -/
def operation (h : Helper) (args : List Value) (zone : TimeZone) :
    Except HelperError (Option (InPlace Registry RegistryError Value)) := do
  let first := args.getD 0 .undefined
  let second := args.getD 1 .undefined
  match h with
  | format => return some (Registry.formatWork first second)
  | utcFormat => return some (Registry.formatDateWork zone true first second)
  | timeFormat => return some (Registry.formatDateWork zone false first second)
  | scale kind => return some (Registry.addScaleWork kind first.toText (args.drop 1))
  | useScale =>
    match first with
    | .text id => return some (Registry.useScaleWork id second)
    | _ => return some (throw .wrongScaleId)
  | getScale =>
    let m ← methodOf h second.toText (ScaleMethod.ofName? second.toText)
    return some (Registry.callScaleWork first.toText m (args.drop 2))
  | setupScale =>
    let m ← methodOf h second.toText (ScaleMethod.ofName? second.toText)
    return some do
      let _ ← Registry.callScaleWork first.toText m (args.drop 2)
      return .undefined
  | axis orient => return some (Registry.addAxisWork orient first.toText second.toText)
  | setupAxis =>
    let m ← methodOf h second.toText (AxisMethod.ofName? second.toText)
    return some (Registry.configureAxisWork first.toText m (args.drop 2))
  | useAxis => return some do InPlace.ofChecked ((← get).drawAxis first.toText)
  | _ => return none

/-- An operation within a call: what was refused becomes its text, but too great a number of ticks ends
the rendering. Whatever the operation has written stays. -/
def settleWork (op : InPlace Registry RegistryError Value) :
    InPlace (HelperState σ) HelperError Value := do
  let s ← get
  let (a, r) ← op.on s.registry
  set { s with registry := r }
  match a with
  | .ok v => return v
  | .error (.tickCount e) => throw (.tickCount e)
  | .error (.scale (.tickCount e)) => throw (.tickCount e)
  | .error e => return .text e.message

def work (h : Helper) (table : Table) (args : List Value) (zone : TimeZone) :
    InPlace (HelperState σ) HelperError Value := do
  let first := args.getD 0 .undefined
  let second := args.getD 1 .undefined
  match ← h.operation args zone with
  | some op => settleWork op
  | none =>
    match h with
    | resetScales =>
      modify fun s => { s with registry := { s.registry with scales := [] } }
      return .undefined
    | resetAxes =>
      modify fun s => { s with registry := { s.registry with axes := [] } }
      return .undefined
    | setVariable =>
      modify fun s => { s with registry := s.registry.setVariable first.toText second }
      return .undefined
    | getVariable => return (← get).registry.getVariable first.toText
    | array => return .array args
    | jsonArray => return .text (Value.quotedValues (← itemsOf h (args.getLastD .undefined)))
    | map => return .array ((← itemsOf h first).map fun v => v.get second.toText)
    | min => return Value.least (← itemsOf h first)
    | max => return Value.greatest (← itemsOf h first)
    | mean => return Value.mean (← itemsOf h first)
    | median => return Value.median (← itemsOf h first)
    | sums => return Value.total (← itemsOf h first)
    | filter =>
      let op := (args[2]?.map Value.toText).getD "=="
      return .array ((← itemsOf h first).filter fun v => Value.relates op v second)
    | sum => return first.add second
    | sub => return .number (first.toNumber - second.toNumber)
    | multiply => return .number (first.toNumber * second.toNumber)
    | divide => return .number (first.toNumber / second.toNumber)
    | math =>
      let f ← methodOf h first.toText (MathFunction.ofName? first.toText)
      return f.eval (args.drop 1)
    | column => return table.columnText first.toText
    | distinct => return table.distinctText first.toText
    | select => return table.selectText (args.map Value.toText)
    | useColor =>
      let (host, color) := HostServices.color (← get).host first.toText
      modify fun s => { s with host }
      return .text color
    | useSelection => return table.selection (← get).host first
    | useSelectionClear => return .text (HostServices.selectionClearMark (← get).host)
    | lookup => return first.get second.toText
    | _ => return .undefined

omit [HostServices σ] in
theorem settleWork_does {op : InPlace Registry RegistryError Value}
    {y : Registry → Checked RegistryError (Registry × Value)} (h : op.Does y) :
    (settleWork op).Does fun s : HelperState σ => s.settle (y s.registry) := by
  refine .of_eq fun s => ?_
  unfold settleWork HelperState.settle
  rw [InPlace.on_get_bind, InPlace.on_lift_bind, h.on_eq]
  match y s.registry with
  | .error f => rfl
  | .ok (.ok (r, v)) => rfl
  | .ok (.error e) =>
    cases e with
    | scale e => cases e <;> rfl
    | _ => rfl

section Operation

variable {h : Helper} {args : List Value} {zone : TimeZone}

/-- **Every operation** does what a computation says that writes nothing before it is refused, and the
call that runs settles this computation. -/
theorem operation_does {op : InPlace Registry RegistryError Value}
    (hop : h.operation args zone = .ok (some op)) :
    ∃ y, op.Does y ∧ ∀ table (s : HelperState σ), h.call table s args zone = s.settle (y s.registry) := by
  unfold operation at hop
  unfold call
  cases h with
  | format =>
    cases hop
    exact ⟨_, Registry.formatWork_does _ _, fun _ _ => rfl⟩
  | utcFormat =>
    cases hop
    exact ⟨_, Registry.formatDateWork_does zone true _ _, fun _ _ => rfl⟩
  | timeFormat =>
    cases hop
    exact ⟨_, Registry.formatDateWork_does zone false _ _, fun _ _ => rfl⟩
  | scale kind =>
    cases hop
    exact ⟨_, Registry.addScaleWork_does kind _ _, fun _ _ => rfl⟩
  | useScale =>
    revert hop
    cases args.getD 0 .undefined with
    | text id =>
      intro hop
      cases hop
      exact ⟨_, Registry.useScaleWork_does id _, fun _ _ => rfl⟩
    | _ =>
      intro hop
      cases hop
      -- a first argument that is no text is refused before any scale is looked up
      exact ⟨fun _ => throw .wrongScaleId, fun _ => rfl, fun _ _ => rfl⟩
  | getScale =>
    obtain ⟨m, hm, hop⟩ := exists_of_bind_eq_ok hop
    cases hop
    dsimp only
    rw [hm]
    exact ⟨_, Registry.callScaleWork_does _ m _, fun _ _ => rfl⟩
  | setupScale =>
    obtain ⟨m, hm, hop⟩ := exists_of_bind_eq_ok hop
    cases hop
    dsimp only
    rw [hm]
    exact ⟨_, (Registry.callScaleWork_does _ m _).replace _, fun _ _ => rfl⟩
  | axis orient =>
    cases hop
    exact ⟨_, Registry.addAxisWork_does orient _ _, fun _ _ => rfl⟩
  | setupAxis =>
    obtain ⟨m, hm, hop⟩ := exists_of_bind_eq_ok hop
    cases hop
    dsimp only
    rw [hm]
    exact ⟨_, Registry.configureAxisWork_does _ m _, fun _ _ => rfl⟩
  | useAxis =>
    cases hop
    exact ⟨_, InPlace.ofChecked_does _, fun _ _ => rfl⟩
  | _ => cases hop

theorem call_of_operation_error {e : HelperError} (hop : h.operation args zone = .error e) (table : Table)
    (s : HelperState σ) : h.call table s args zone = throw e := by
  unfold operation at hop
  unfold call
  cases h with
  | useScale =>
    dsimp only at hop
    split at hop <;> cases hop
  | getScale | setupScale | setupAxis =>
    dsimp only at hop ⊢
    revert hop
    cases methodOf _ _ _ with
    | error e' =>
      intro hop
      cases hop
      rfl
    | ok m => exact nofun
  | _ => cases hop

/-- Helpers without an operation do the same in place; some of them refuse what is no list first. -/
theorem on_work_of_no_operation (hop : h.operation args zone = .ok none) (table : Table) (s : HelperState σ) :
    (h.work table args zone).on s = (h.call table s args zone).onto s := by
  unfold operation at hop
  unfold call
  cases h with
  | format | utcFormat | timeFormat | scale | axis | useAxis => cases hop
  | useScale =>
    dsimp only at hop
    split at hop <;> cases hop
  | getScale | setupScale | setupAxis =>
    obtain ⟨m, -, hop⟩ := exists_of_bind_eq_ok hop
    cases hop
  | math =>
    dsimp only
    rw [Checked.onto_liftError_bind]
    unfold work operation
    dsimp only
    cases methodOf math _ (MathFunction.ofName? _) <;> rfl
  | jsonArray | map | min | max | mean | median | sums | filter =>
    dsimp only
    rw [Checked.onto_liftError_bind]
    unfold work operation
    dsimp only
    cases itemsOf _ _ <;> rfl
  | _ => rfl

end Operation

/-- **A call** on the state does what the call that runs does. -/
theorem work_does (h : Helper) (table : Table) (args : List Value) (zone : TimeZone) :
    (h.work table args zone).Does fun s : HelperState σ => h.call table s args zone := by
  refine .of_eq fun s => ?_
  cases hop : h.operation args zone with
  | error e =>
    rw [call_of_operation_error hop]
    unfold work
    rw [hop]
    rfl
  | ok found =>
    cases found with
    | some op =>
      obtain ⟨y, hdoes, hcall⟩ := operation_does (σ := σ) hop
      rw [hcall]
      unfold work
      rw [hop]
      exact (settleWork_does hdoes).on_eq s
    | none => exact on_work_of_no_operation hop table s

end Helper

end ChartTemplate
