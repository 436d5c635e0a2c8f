import Mathlib
import ChartTemplate.Proofs.Helper.Reset

/-!
# What calls do to a registry

`HelperCall.Operates` lists the operations on a registry that calls of helpers settle, and
`HelperCall.Answers` the outcomes of calls that settle none; `call_cases` says that there are no other
calls. What holds of all calls is shown by a case analysis over the two lists.

`HelperCall.Effect` lists all that a call can do to a registry: it keeps another format, makes, uses or
changes one scale, makes or changes one axis, sets one variable, or drops the scales or the axes.
`effect_of_run` says that there is nothing else. Properties of registries that calls keep are case
analyses over this list.
-/

namespace ChartTemplate

open Entries (get?)

/-! ## Results -/

namespace Checked

variable {ε α β : Type} {P : α → Prop} {Q : β → Prop}

/-- Every result of a computation has a property. -/
def Yields (P : α → Prop) (x : Checked ε α) : Prop :=
  ∀ a, x.run = .ok (.ok a) → P a

theorem Yields.pure {a : α} (h : P a) : Yields (ε := ε) P (Pure.pure a) := by
  intro b hb
  cases hb
  exact h

theorem Yields.throw (e : ε) : Yields P (MonadExcept.throw e : Checked ε α) := by
  intro a h
  cases h

theorem Yields.bind {x : Checked ε α} {f : α → Checked ε β}
    (h : ∀ a, x.run = .ok (.ok a) → Yields Q (f a)) : Yields Q (x >>= f) := by
  intro b hb
  match x, h with
  | .error _, _ => cases hb
  | .ok (.error _), _ => cases hb
  | .ok (.ok a), h => exact h a rfl b hb

theorem eq_ok_of_lift {x : Except Fault α} {a : α}
    (h : (liftM x : Checked ε α).run = .ok (.ok a)) : x = .ok a := by
  cases x with
  | error f => cases h
  | ok b => cases h; rfl

theorem eq_ok_of_adapt {δ : Type} {f : ε → δ} {x : Checked ε α} {a : α}
    (h : (x.adapt f).run = .ok (.ok a)) : x.run = .ok (.ok a) := by
  match x with
  | .error g => cases h
  | .ok (.error e) => cases h
  | .ok (.ok b) => cases h; rfl

end Checked

open Checked (Yields eq_ok_of_lift eq_ok_of_adapt)

variable {σ : Type}

namespace HelperCall

def argument (c : HelperCall σ) (i : Nat) : Value :=
  c.args.getD i .undefined

/-- The text of the first argument, by which most helpers name what they work on. -/
def target (c : HelperCall σ) : String :=
  (c.argument 0).toText

/-! ## The calls -/

/-- The operation on a registry that a call settles. -/
inductive Operates (c : HelperCall σ) (r : Registry) : Checked RegistryError (Registry × Value) → Prop
  | format (hc : c.helper = .format) : Operates c r (r.format (c.argument 0) (c.argument 1))
  | utcFormat (hc : c.helper = .utcFormat) :
      Operates c r (r.formatDate c.zone true (c.argument 0) (c.argument 1))
  | timeFormat (hc : c.helper = .timeFormat) :
      Operates c r (r.formatDate c.zone false (c.argument 0) (c.argument 1))
  | addScale {kind : ScaleKind} (hc : c.helper = .scale kind) :
      Operates c r (Helper.silent (r.addScale kind c.target (c.args.drop 1)))
  | useScale {id : String} (hc : c.helper = .useScale) (hid : c.argument 0 = .text id) :
      Operates c r (r.useScale id (c.argument 1))
  | getScale {m : ScaleMethod} (hc : c.helper = .getScale)
      (hm : ScaleMethod.ofName? (c.argument 1).toText = some m) :
      Operates c r (r.callScale c.target m (c.args.drop 2))
  | setupScale {m : ScaleMethod} (hc : c.helper = .setupScale)
      (hm : ScaleMethod.ofName? (c.argument 1).toText = some m) :
      Operates c r (r.callScale c.target m (c.args.drop 2) >>= fun a => pure (a.1, .undefined))
  | addAxis {orient : Orient} (hc : c.helper = .axis orient) :
      Operates c r (Helper.silent (r.addAxis orient c.target (c.argument 1).toText))
  | configureAxis {m : AxisMethod} (hc : c.helper = .setupAxis)
      (hm : AxisMethod.ofName? (c.argument 1).toText = some m) :
      Operates c r (Helper.silent (r.configureAxis c.target m (c.args.drop 2)))
  | drawAxis (hc : c.helper = .useAxis) :
      Operates c r (r.drawAxis c.target >>= fun v => pure (r, v))

/-- The outcomes of calls that settle no operation. -/
inductive Answers [HostServices σ] (c : HelperCall σ) (s : HelperState σ) :
    Checked HelperError (HelperState σ × Value) → Prop
  | value (v : Value) : Answers c s (pure (s, v))
  | color (key : String) (v : Value) :
      Answers c s (pure ({ s with host := (HostServices.color s.host key).1 }, v))
  | resetScales (hc : c.helper = .resetScales) :
      Answers c s (pure ({ s with registry := { s.registry with scales := [] } }, .undefined))
  | resetAxes (hc : c.helper = .resetAxes) :
      Answers c s (pure ({ s with registry := { s.registry with axes := [] } }, .undefined))
  | setVariable (hc : c.helper = .setVariable) :
      Answers c s (pure ({ s with registry := s.registry.setVariable c.target (c.argument 1) }, .undefined))
  | notArray (h : Helper) (found : String) : Answers c s (throw (.notArray h found))
  | unknownMethod {h : Helper} {name : String} (hname : h.acceptsMethod name = false) :
      Answers c s (throw (.unknownMethod h name))

theorem Operates.call_eq [HostServices σ] {c : HelperCall σ} {s : HelperState σ}
    {x : Checked RegistryError (Registry × Value)} (h : c.Operates s.registry x) :
    c.on s = s.settle x := by
  unfold HelperCall.on Helper.call
  cases h with
  | useScale hc hid =>
    have hid : c.args.getD 0 .undefined = _ := hid
    rw [hc]
    dsimp only
    rw [hid]
    rfl
  | getScale hc hm | setupScale hc hm =>
    have hm : ScaleMethod.ofName? (c.args.getD 1 .undefined).toText = _ := hm
    rw [hc]
    dsimp only
    rw [hm]
    rfl
  | configureAxis hc hm =>
    have hm : AxisMethod.ofName? (c.args.getD 1 .undefined).toText = _ := hm
    rw [hc]
    dsimp only
    rw [hm]
    rfl
  | format hc | utcFormat hc | timeFormat hc | addScale hc | addAxis hc | drawAxis hc =>
    rw [hc]
    rfl

theorem answers_of_items [HostServices σ] (c : HelperCall σ) (s : HelperState σ) (h : Helper) (v : Value) (f : List Value → Value) :
    c.Answers s (liftM (h.itemsOf v) >>= fun items => pure (s, f items)) := by
  cases v with
  | array items => exact .value _
  | _ => exact .notArray h _

/-- **Calls of helpers** settle an operation on the registry, or answer without one. -/
theorem call_cases [HostServices σ] (c : HelperCall σ) (s : HelperState σ) :
    (∃ x, c.Operates s.registry x) ∨ c.Answers s (c.on s) := by
  unfold HelperCall.on Helper.call
  cases hc : c.helper with
  | format => exact .inl ⟨_, .format hc⟩
  | utcFormat => exact .inl ⟨_, .utcFormat hc⟩
  | timeFormat => exact .inl ⟨_, .timeFormat hc⟩
  | scale kind => exact .inl ⟨_, .addScale hc⟩
  | useScale =>
    dsimp only
    split
    · exact .inl ⟨_, .useScale hc ‹_›⟩
    · exact .inr (.value _)
  | getScale =>
    dsimp only
    cases hm : ScaleMethod.ofName? _ with
    | some m => exact .inl ⟨_, .getScale hc hm⟩
    | none => exact .inr (.unknownMethod (by rw [Helper.acceptsMethod, hm]; rfl))
  | setupScale =>
    dsimp only
    cases hm : ScaleMethod.ofName? _ with
    | some m => exact .inl ⟨_, .setupScale hc hm⟩
    | none => exact .inr (.unknownMethod (by rw [Helper.acceptsMethod, hm]; rfl))
  | resetScales => exact .inr (.resetScales hc)
  | axis orient => exact .inl ⟨_, .addAxis hc⟩
  | setupAxis =>
    dsimp only
    cases hm : AxisMethod.ofName? _ with
    | some m => exact .inl ⟨_, .configureAxis hc hm⟩
    | none => exact .inr (.unknownMethod (by rw [Helper.acceptsMethod, hm]; rfl))
  | useAxis => exact .inl ⟨_, .drawAxis hc⟩
  | resetAxes => exact .inr (.resetAxes hc)
  | setVariable => exact .inr (.setVariable hc)
  | jsonArray | map | min | max | mean | median | sums | filter =>
    exact .inr (answers_of_items c s _ _ _)
  | math =>
    dsimp only
    cases hm : MathFunction.ofName? _ with
    | some f => exact .inr (.value _)
    | none => exact .inr (.unknownMethod (by rw [Helper.acceptsMethod, hm]; rfl))
  | useColor => exact .inr (.color _ _)
  | _ => exact .inr (.value _)

/-! ## The list of effects -/

/-- What a call may do to a registry. -/
inductive Effect (c : HelperCall σ) (r : Registry) : Registry → Prop
  /-- At most another format is kept. -/
  | formats {r' : Registry} (hscales : r'.scales = r.scales) (haxes : r'.axes = r.axes)
      (hvalues : r'.values = r.values) : Effect c r r'
  | addScale (kind : ScaleKind) (hc : c.helper = .scale kind)
      (hnew : Entries.contains r.scales c.target = false) :
      Effect c r { r with
        scales := Entries.insert r.scales c.target (Scale.make kind (c.args.drop 1)) }
  | useScale {id : String} {s s' : Scale} {y : Value} (hc : c.helper = .useScale)
      (hid : c.argument 0 = .text id) (hs : get? r.scales id = some s)
      (happly : s.apply (c.argument 1) = .ok (s', y)) :
      Effect c r { r with scales := Entries.insert r.scales id s' }
  | callScale {s s' : Scale} {m : ScaleMethod} {v : Value}
      (hc : c.helper = .getScale ∨ c.helper = .setupScale)
      (hs : get? r.scales c.target = some s)
      (hcall : (s.call m (c.args.drop 2)).run = .ok (.ok (s', v))) :
      Effect c r { r with scales := Entries.insert r.scales c.target s' }
  | resetScales (hc : c.helper = .resetScales) : Effect c r { r with scales := [] }
  | addAxis (orient : Orient) (scale : String) (hc : c.helper = .axis orient) :
      Effect c r { r with axes := Entries.insert r.axes c.target (Axis.make orient scale) }
  | configureAxis {a a' : Axis} {m : AxisMethod} (hc : c.helper = .setupAxis)
      (ha : get? r.axes c.target = some a) (hconfigure : a.configure m (c.args.drop 2) = .ok a') :
      Effect c r { r with axes := Entries.insert r.axes c.target a' }
  | resetAxes (hc : c.helper = .resetAxes) : Effect c r { r with axes := [] }
  | setVariable (hc : c.helper = .setVariable) :
      Effect c r (r.setVariable c.target (c.argument 1))

theorem Effect.same (c : HelperCall σ) (r : Registry) : Effect c r r :=
  .formats rfl rfl rfl

/-! ## Operations -/

variable {c : HelperCall σ} {r : Registry}

/-- The result of a registry operation goes into the state; a refused one leaves the state alone. -/
theorem settle_yields {s : HelperState σ} {x : Checked RegistryError (Registry × Value)}
    (hx : x.Yields fun a => c.Effect s.registry a.1) :
    (s.settle x).Yields fun b => c.Effect s.registry b.1.registry := by
  intro b hb
  match x, hx with
  | .error f, _ => cases hb
  | .ok (.ok a), hx =>
    cases hb
    exact hx a rfl
  | .ok (.error e), _ =>
    cases e with
    | tickCount e => cases hb
    | scale e =>
      cases e with
      | tickCount e => cases hb
      | unsupported m k => cases hb; exact .same c _
    | _ => cases hb; exact .same c _

theorem numberFormat_yields (pattern : String) :
    Yields (ε := RegistryError) (fun a => a.1.scales = r.scales ∧ a.1.axes = r.axes ∧
      a.1.values = r.values) (liftM (r.numberFormat pattern)) := by
  unfold Registry.numberFormat
  split
  · exact .pure ⟨rfl, rfl, rfl⟩
  · split
    · exact .pure ⟨rfl, rfl, rfl⟩
    · exact .throw _

theorem format_yields (v pattern : Value) :
    (r.format v pattern).Yields fun a => c.Effect r a.1 := by
  unfold Registry.format
  split
  · exact .pure (.same c r)
  · refine .bind fun a ha => .bind fun text _ => .pure ?_
    obtain ⟨hscales, haxes, hvalues⟩ := numberFormat_yields _ a ha
    exact .formats hscales haxes hvalues
  · exact .throw _
  · exact .throw _

theorem datePattern_kept (utc : Bool) (pattern : String) :
    (r.datePattern utc pattern).1.scales = r.scales ∧
      (r.datePattern utc pattern).1.axes = r.axes ∧
      (r.datePattern utc pattern).1.values = r.values := by
  unfold Registry.datePattern
  split
  · exact ⟨rfl, rfl, rfl⟩
  · cases utc <;> exact ⟨rfl, rfl, rfl⟩

theorem formatDate_yields (zone : TimeZone) (utc : Bool) (v pattern : Value) :
    (r.formatDate zone utc v pattern).Yields fun a => c.Effect r a.1 := by
  unfold Registry.formatDate
  split
  · exact .pure (.same c r)
  · split
    · exact .pure (.same c r)
    · obtain ⟨hscales, haxes, hvalues⟩ := datePattern_kept (r := r) utc _
      exact .bind fun offset _ => .pure (.formats hscales haxes hvalues)
  · exact .throw _

theorem addScale_yields {kind : ScaleKind} (hc : c.helper = .scale kind) :
    (Helper.silent (r.addScale kind c.target (c.args.drop 1))).Yields fun a => c.Effect r a.1 := by
  unfold Registry.addScale
  split
  · exact .throw _
  · rename_i hnew
    exact .pure (.addScale kind hc (Bool.not_eq_true _ ▸ hnew))

theorem useScale_yields {id : String} (hc : c.helper = .useScale) (hid : c.argument 0 = .text id) :
    (r.useScale id (c.argument 1)).Yields fun a => c.Effect r a.1 := by
  unfold Registry.useScale
  split
  · exact .throw _
  · rename_i s hs
    split
    · exact .throw _
    · refine .bind fun a ha => .pure ?_
      exact .useScale hc hid hs (eq_ok_of_lift ha)

theorem callScale_yields (hc : c.helper = .getScale ∨ c.helper = .setupScale) (m : ScaleMethod) :
    (r.callScale c.target m (c.args.drop 2)).Yields fun a => c.Effect r a.1 := by
  unfold Registry.callScale
  split
  · exact .pure (.same c r)
  · rename_i s hs
    exact .bind fun a ha => .pure (.callScale hc hs (eq_ok_of_adapt ha))

theorem addAxis_yields {orient : Orient} (hc : c.helper = .axis orient) (scale : String) :
    (Helper.silent (r.addAxis orient c.target scale)).Yields fun a => c.Effect r a.1 := by
  unfold Registry.addAxis
  split
  · exact .pure (.addAxis orient scale hc)
  · exact .throw _

theorem configureAxis_yields (hc : c.helper = .setupAxis) (m : AxisMethod) :
    (Helper.silent (r.configureAxis c.target m (c.args.drop 2))).Yields fun a => c.Effect r a.1 := by
  unfold Registry.configureAxis
  split
  · exact .pure (.same c r)
  · rename_i a ha
    split
    · rename_i hconfigure
      exact .pure (.configureAxis hc ha hconfigure)
    · exact .throw _
    · exact .throw _

theorem Operates.yields {x : Checked RegistryError (Registry × Value)} (h : c.Operates r x) :
    x.Yields fun a => c.Effect r a.1 := by
  cases h with
  | format => exact format_yields _ _
  | utcFormat => exact formatDate_yields _ true _ _
  | timeFormat => exact formatDate_yields _ false _ _
  | addScale hc => exact addScale_yields hc
  | useScale hc hid => exact useScale_yields hc hid
  | getScale hc => exact callScale_yields (.inl hc) _
  | setupScale hc => exact .bind fun a ha => .pure (callScale_yields (.inr hc) _ a ha)
  | addAxis hc => exact addAxis_yields hc _
  | configureAxis hc => exact configureAxis_yields hc _
  | drawAxis => exact .bind fun v _ => .pure (.same c r)

theorem Answers.yields [HostServices σ] {s : HelperState σ} {y : Checked HelperError (HelperState σ × Value)}
    (h : c.Answers s y) : y.Yields fun b => c.Effect s.registry b.1.registry := by
  cases h with
  | value | color => exact .pure (.same c _)
  | resetScales hc => exact .pure (.resetScales hc)
  | resetAxes hc => exact .pure (.resetAxes hc)
  | setVariable hc => exact .pure (.setVariable hc)
  | notArray | unknownMethod => exact .throw _

/-! ## Calls -/

theorem call_yields [HostServices σ] (c : HelperCall σ) (r : Registry) :
    (c.on ⟨r, c.host⟩).Yields fun b => c.Effect r b.1.registry := by
  rcases c.call_cases ⟨r, c.host⟩ with ⟨x, hx⟩ | hanswer
  · rw [hx.call_eq]
    exact settle_yields hx.yields
  · exact hanswer.yields

/-- **A call** does to a registry what is in the list of effects. -/
theorem effect_of_run [HostServices σ] {r r' : Registry} {a : Answer σ} (h : c.run r = .ok (r', a)) : c.Effect r r' := by
  have hcall := call_yields c r
  unfold run at h
  generalize c.on ⟨r, c.host⟩ = x at h hcall
  match x, hcall, h with
  | .error f, _, h => cases h
  | .ok (.error e), _, h =>
    cases h
    exact .same c r
  | .ok (.ok b), hcall, h =>
    cases h
    exact hcall b rfl

end HelperCall

end ChartTemplate
