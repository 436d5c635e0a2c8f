import ChartTemplate.Helper.Call
import ChartTemplate.Proofs.Entries

/-!
# Kept formats

A registry keeps formats by their texts. `Registry.Compiled` says that each of them is the one that its
text gives. Registries that agree in scales, axes and variables, and keep such formats only, are
`Alike`: whatever they keep, no helper can tell them apart (`call_alike`).
-/

namespace ChartTemplate

open Entries (get?)

/-! ## Outcomes -/

/-- Two computations end in the same fault, or with related results. -/
inductive EndAlike {α β : Type} (R : α → β → Prop) : Except Fault α → Except Fault β → Prop
  | fault (f : Fault) : EndAlike R (.error f) (.error f)
  | ok {a b} (h : R a b) : EndAlike R (.ok a) (.ok b)

theorem EndAlike.bind {α β γ δ : Type} {R : α → β → Prop} {S : γ → δ → Prop} {x : Except Fault α}
    {y : Except Fault β} {f : α → Except Fault γ} {g : β → Except Fault δ} (h : EndAlike R x y)
    (hfg : ∀ a b, R a b → EndAlike S (f a) (g b)) : EndAlike S (x >>= f) (y >>= g) := by
  cases h with
  | fault f => exact .fault f
  | ok h => exact hfg _ _ h

theorem EndAlike.map_eq {α β γ : Type} {R : α → β → Prop} {x : Except Fault α} {y : Except Fault β}
    {f : α → γ} {g : β → γ} (h : EndAlike R x y) (hfg : ∀ a b, R a b → f a = g b) :
    f <$> x = g <$> y := by
  cases h with
  | fault f => rfl
  | ok h => exact congrArg Except.ok (hfg _ _ h)

/-- Two computations end in the same fault, in the same error, or with related results. -/
inductive Checked.Rel {ε α β : Type} (R : α → β → Prop) : Checked ε α → Checked ε β → Prop
  | fault (f : Fault) :
    Rel R (ExceptT.mk (Except.error f : Except Fault (Except ε α)))
      (ExceptT.mk (Except.error f : Except Fault (Except ε β)))
  | error (e : ε) : Rel R (throw e) (throw e)
  | ok {a b} (h : R a b) : Rel R (pure a) (pure b)

namespace Checked

variable {ε α β γ δ : Type} {R : α → β → Prop} {S : γ → δ → Prop}

theorem Rel.bind {x : Checked ε α} {y : Checked ε β} {f : α → Checked ε γ} {g : β → Checked ε δ}
    (h : Rel R x y) (hfg : ∀ a b, R a b → Rel S (f a) (g b)) : Rel S (x >>= f) (y >>= g) := by
  cases h with
  | fault f => exact .fault f
  | error e => exact .error e
  | ok h => exact hfg _ _ h

theorem Rel.same (x : Checked ε α) : Rel Eq x x := by
  match x with
  | .error f => exact .fault f
  | .ok (.error e) => exact .error e
  | .ok (.ok a) => exact .ok rfl

theorem Rel.after (x : Checked ε α) {f : α → Checked ε γ} {g : α → Checked ε δ}
    (hfg : ∀ a, Rel S (f a) (g a)) : Rel S (x >>= f) (x >>= g) := by
  refine (Rel.same x).bind fun a b hab => ?_
  rw [hab]
  exact hfg b

end Checked

/-- Related states with the same result. -/
def SameResult {σ α : Type} (R : σ → σ → Prop) (a b : σ × α) : Prop :=
  R a.1 b.1 ∧ a.2 = b.2

/-! ## Registries -/

/-- What is kept under a text is given by the text. -/
def KeptBy {α : Type} (gives : String → α → Prop) (kept : Entries α) : Prop :=
  ∀ text v, get? kept text = some v → gives text v

theorem keptBy_nil {α : Type} (gives : String → α → Prop) : KeptBy gives [] := by
  intro text v h
  cases h

theorem KeptBy.insert {α : Type} {gives : String → α → Prop} {kept : Entries α} {text : String}
    {v : α} (hkept : KeptBy gives kept) (hv : gives text v) :
    KeptBy gives (Entries.insert kept text v) := by
  intro text' v' h
  rw [Entries.get?_insert] at h
  split at h
  · rename_i heq
    subst heq
    exact Option.some.inj h ▸ hv
  · exact hkept text' v' h

/-- A registry keeps the formats that their texts give. -/
structure Registry.Compiled (r : Registry) : Prop where
  number : KeptBy (fun text f => NumberFormat.ofText text = .ok f) r.numberFormats
  utcTime : KeptBy (fun text p => DatePattern.ofText text = p) r.utcPatterns
  localTime : KeptBy (fun text p => DatePattern.ofText text = p) r.localPatterns

/-- Registries with the same scales, axes and variables, that keep what texts give. -/
structure Registry.Alike (r r' : Registry) : Prop where
  scales : r.scales = r'.scales
  axes : r.axes = r'.axes
  values : r.values = r'.values
  compiled : r.Compiled
  compiled' : r'.Compiled

namespace Registry

variable {r r' : Registry}

theorem compiled_empty : empty.Compiled := ⟨keptBy_nil _, keptBy_nil _, keptBy_nil _⟩

theorem Compiled.alike_self (h : r.Compiled) : r.Alike r := ⟨rfl, rfl, rfl, h, h⟩

/-- **A reset registry** is like the empty one. -/
theorem Compiled.alike_reset (h : r.Compiled) : r.reset.Alike empty :=
  ⟨rfl, rfl, rfl, ⟨h.number, h.utcTime, h.localTime⟩, compiled_empty⟩

theorem Alike.update (h : r.Alike r') {scales scales' : Entries Scale} {axes axes' : Entries Axis}
    {values values' : Entries Value} (hscales : scales = scales') (haxes : axes = axes')
    (hvalues : values = values') :
    Alike ⟨scales, axes, values, r.numberFormats, r.utcPatterns, r.localPatterns⟩
      ⟨scales', axes', values', r'.numberFormats, r'.utcPatterns, r'.localPatterns⟩ :=
  ⟨hscales, haxes, hvalues, ⟨h.compiled.number, h.compiled.utcTime, h.compiled.localTime⟩,
    ⟨h.compiled'.number, h.compiled'.utcTime, h.compiled'.localTime⟩⟩

abbrev SameOutcome {ε α : Type} (x y : Checked ε (Registry × α)) : Prop :=
  Checked.Rel (SameResult Alike) x y

theorem Alike.symm (h : r.Alike r') : r'.Alike r :=
  ⟨h.scales.symm, h.axes.symm, h.values.symm, h.compiled', h.compiled⟩

theorem Alike.trans {s : Registry} (h : r.Alike r') (h' : r'.Alike s) : r.Alike s :=
  ⟨h.scales.trans h'.scales, h.axes.trans h'.axes, h.values.trans h'.values, h.compiled,
    h'.compiled'⟩

/-! ### Formats -/

theorem numberFormat_eq (h : r.Compiled) (text : String) :
    match NumberFormat.ofText text with
    | .ok f => ∃ s, r.Alike s ∧ r.numberFormat text = .ok (s, f)
    | .error _ => r.numberFormat text = .error .wrongFormat := by
  unfold numberFormat
  cases hget : get? r.numberFormats text with
  | some f =>
    rw [h.number text f hget]
    exact ⟨r, h.alike_self, rfl⟩
  | none =>
    cases hgives : NumberFormat.ofText text with
    | ok f =>
      refine ⟨{ r with numberFormats := Entries.insert r.numberFormats text f }, ?_, rfl⟩
      exact ⟨rfl, rfl, rfl, h, ⟨h.number.insert hgives, h.utcTime, h.localTime⟩⟩
    | error e => rfl

theorem datePattern_eq (h : r.Compiled) (utc : Bool) (text : String) :
    ∃ s, r.Alike s ∧ r.datePattern utc text = (s, DatePattern.ofText text) := by
  unfold datePattern
  cases hget : get? (if utc then r.utcPatterns else r.localPatterns) text with
  | some p =>
    refine ⟨r, h.alike_self, ?_⟩
    cases utc with
    | true => rw [h.utcTime text p hget]
    | false => rw [h.localTime text p hget]
  | none =>
    cases utc with
    | true =>
      refine ⟨{ r with utcPatterns := Entries.insert r.utcPatterns text _ }, ?_, rfl⟩
      exact ⟨rfl, rfl, rfl, h, ⟨h.number, h.utcTime.insert rfl, h.localTime⟩⟩
    | false =>
      refine ⟨{ r with localPatterns := Entries.insert r.localPatterns text _ }, ?_, rfl⟩
      exact ⟨rfl, rfl, rfl, h, ⟨h.number, h.utcTime, h.localTime.insert rfl⟩⟩

theorem format_alike (h : r.Alike r') (v pattern : Value) :
    SameOutcome (r.format v pattern) (r'.format v pattern) := by
  unfold format
  split
  · exact .ok ⟨h, rfl⟩
  · rename_i x text
    have hformat := numberFormat_eq h.compiled text
    have hformat' := numberFormat_eq h.compiled' text
    cases hgives : NumberFormat.ofText text with
    | ok f =>
      rw [hgives] at hformat hformat'
      obtain ⟨s, hs, heq⟩ := hformat
      obtain ⟨s', hs', heq'⟩ := hformat'
      rw [heq, heq']
      refine Checked.Rel.after (liftM (f.format x)) fun t => .ok ⟨hs.symm.trans (h.trans hs'), rfl⟩
    | error e =>
      rw [hgives] at hformat hformat'
      rw [hformat, hformat']
      exact .error _
  · exact .error _
  · exact .error _

theorem formatDate_alike (h : r.Alike r') (zone : TimeZone) (utc : Bool) (v pattern : Value) :
    SameOutcome (r.formatDate zone utc v pattern) (r'.formatDate zone utc v pattern) := by
  unfold formatDate
  split
  · exact .ok ⟨h, rfl⟩
  · split
    · exact .ok ⟨h, rfl⟩
    · rename_i text _ _ t _
      obtain ⟨s, hs, heq⟩ := datePattern_eq h.compiled utc text
      obtain ⟨s', hs', heq'⟩ := datePattern_eq h.compiled' utc text
      rw [heq, heq']
      exact Checked.Rel.after _ fun offset => .ok ⟨hs.symm.trans (h.trans hs'), rfl⟩
  · exact .error _

/-! ### Formats that a cut-off call leaves -/

theorem keepNumberFormat_alike (h : r.Compiled) (pattern : Value) :
    r.Alike (r.keepNumberFormat pattern) := by
  unfold keepNumberFormat
  split
  · rename_i text
    have hformat := numberFormat_eq h text
    cases hgives : NumberFormat.ofText text with
    | ok f =>
      rw [hgives] at hformat
      obtain ⟨s, hs, heq⟩ := hformat
      rw [heq]
      exact hs
    | error e =>
      rw [hgives] at hformat
      rw [hformat]
      exact h.alike_self
  · exact h.alike_self

theorem keepDatePattern_alike (h : r.Compiled) (utc : Bool) (pattern : Value) :
    r.Alike (r.keepDatePattern utc pattern) := by
  unfold keepDatePattern
  split
  · rename_i text
    obtain ⟨s, hs, heq⟩ := datePattern_eq h utc text
    rw [heq]
    exact hs
  · exact h.alike_self

/-! ### Scales, axes and variables -/

theorem addScale_alike (h : r.Alike r') (kind : ScaleKind) (id : String) (args : List Value) :
    SameOutcome (Helper.silent (r.addScale kind id args))
      (Helper.silent (r'.addScale kind id args)) := by
  unfold addScale
  rw [h.scales]
  split
  · exact .error _
  · exact .ok ⟨h.update rfl h.axes h.values, rfl⟩

theorem useScale_alike (h : r.Alike r') (id : String) (v : Value) :
    SameOutcome (r.useScale id v) (r'.useScale id v) := by
  unfold useScale
  rw [h.scales]
  split
  · exact .error _
  · rename_i s _
    split
    · exact .error _
    · exact Checked.Rel.after (liftM (s.apply v)) fun a => .ok ⟨h.update rfl h.axes h.values, rfl⟩

theorem callScale_alike (h : r.Alike r') (id : String) (m : ScaleMethod) (args : List Value) :
    SameOutcome (r.callScale id m args) (r'.callScale id m args) := by
  unfold callScale
  rw [h.scales]
  split
  · exact .ok ⟨h, rfl⟩
  · exact Checked.Rel.after _ fun a => .ok ⟨h.update rfl h.axes h.values, rfl⟩

theorem addAxis_alike (h : r.Alike r') (orient : Orient) (id scale : String) :
    SameOutcome (Helper.silent (r.addAxis orient id scale))
      (Helper.silent (r'.addAxis orient id scale)) := by
  unfold addAxis
  rw [h.scales, h.axes]
  split
  · exact .ok ⟨h.update rfl rfl h.values, rfl⟩
  · exact .error _

theorem configureAxis_alike (h : r.Alike r') (id : String) (m : AxisMethod) (args : List Value) :
    SameOutcome (Helper.silent (r.configureAxis id m args))
      (Helper.silent (r'.configureAxis id m args)) := by
  unfold configureAxis
  rw [h.axes]
  split
  · exact .ok ⟨h, rfl⟩
  · split
    · exact .ok ⟨h.update h.scales rfl h.values, rfl⟩
    · exact .error _
    · exact .error _

theorem Alike.drawAxis (h : r.Alike r') (id : String) : r.drawAxis id = r'.drawAxis id := by
  unfold Registry.drawAxis
  rw [h.axes, h.scales]

theorem Alike.getVariable (h : r.Alike r') (name : String) :
    r.getVariable name = r'.getVariable name := by
  rw [Registry.getVariable, Registry.getVariable, h.values]

end Registry

/-! ## Calls -/

variable {σ : Type}

/-- States of helpers that no call can tell apart. -/
structure HelperState.Alike (s s' : HelperState σ) : Prop where
  registry : s.registry.Alike s'.registry
  host : s.host = s'.host

variable {s s' : HelperState σ}

/-- The outcomes of registry operations that keep registries related are those of related calls. -/
theorem settle_rel {R : Registry → Registry → Prop} {S : HelperState σ → HelperState σ → Prop}
    (h : S s s')
    (hstate : ∀ r r', R r r' → S { s with registry := r } { s' with registry := r' })
    {x y : Checked RegistryError (Registry × Value)} (hxy : Checked.Rel (SameResult R) x y) :
    Checked.Rel (SameResult S) (s.settle x) (s'.settle y) := by
  cases hxy with
  | fault f => exact .fault f
  | ok hab =>
    obtain ⟨hr, hv⟩ := hab
    exact .ok ⟨hstate _ _ hr, hv⟩
  | error e =>
    cases e with
    | tickCount e => exact .error _
    | scale e =>
      cases e with
      | tickCount e => exact .error _
      | _ => exact .ok ⟨h, rfl⟩
    | _ => exact .ok ⟨h, rfl⟩

theorem settle_alike (h : HelperState.Alike s s') {x y : Checked RegistryError (Registry × Value)}
    (hxy : Registry.SameOutcome x y) :
    Checked.Rel (SameResult HelperState.Alike) (s.settle x) (s'.settle y) :=
  settle_rel h (fun _ _ hr => ⟨hr, h.host⟩) hxy

/-- **Calls of helpers** in states that are alike end alike. -/
theorem call_alike [HostServices σ] (h : s.Alike s') (helper : Helper) (table : Table)
    (args : List Value) (zone : TimeZone) :
    Checked.Rel (SameResult HelperState.Alike) (helper.call table s args zone)
      (helper.call table s' args zone) := by
  have hr := h.registry
  have hstate {r r' : Registry} (hr : r.Alike r') :
      HelperState.Alike { s with registry := r } { s' with registry := r' } :=
    ⟨hr, h.host⟩
  unfold Helper.call
  cases helper with
  | format => exact settle_alike h (Registry.format_alike hr _ _)
  | utcFormat => exact settle_alike h (Registry.formatDate_alike hr zone true _ _)
  | timeFormat => exact settle_alike h (Registry.formatDate_alike hr zone false _ _)
  | scale kind => exact settle_alike h (Registry.addScale_alike hr kind _ _)
  | useScale =>
    dsimp only
    split
    · exact settle_alike h (Registry.useScale_alike hr _ _)
    · exact .ok ⟨h, rfl⟩
  | getScale =>
    refine Checked.Rel.after _ fun m => ?_
    exact settle_alike h (Registry.callScale_alike hr _ m _)
  | setupScale =>
    refine Checked.Rel.after _ fun m => settle_alike h ?_
    refine (Registry.callScale_alike hr _ m _).bind fun a b hab => ?_
    exact .ok ⟨hab.1, rfl⟩
  | resetScales => exact .ok ⟨hstate (hr.update rfl hr.axes hr.values), rfl⟩
  | axis orient => exact settle_alike h (Registry.addAxis_alike hr orient _ _)
  | setupAxis =>
    refine Checked.Rel.after _ fun m => ?_
    exact settle_alike h (Registry.configureAxis_alike hr _ m _)
  | useAxis =>
    dsimp only
    rw [hr.drawAxis]
    exact settle_alike h (Checked.Rel.after _ fun v => .ok ⟨hr, rfl⟩)
  | resetAxes => exact .ok ⟨hstate (hr.update hr.scales rfl hr.values), rfl⟩
  | setVariable =>
    refine .ok ⟨hstate (hr.update hr.scales hr.axes ?_), rfl⟩
    rw [hr.values]
  | getVariable => exact .ok ⟨h, hr.getVariable _⟩
  | useColor =>
    dsimp only
    rw [h.host]
    exact .ok ⟨⟨hr, rfl⟩, rfl⟩
  | useSelection | useSelectionClear =>
    dsimp only
    rw [h.host]
    exact .ok ⟨h, rfl⟩
  | _ =>
    -- The other helpers neither see nor change the state.
    first
      | exact .ok ⟨h, rfl⟩
      | exact Checked.Rel.after _ fun a => .ok ⟨h, rfl⟩

/-- What a call leaves that is cut off cannot be told from the state that it was made in. -/
theorem left_alike (h : s.Alike s') (helper : Helper) (args : List Value) :
    (helper.left s args).Alike (helper.left s' args) := by
  have hregistry := h.registry
  unfold Helper.left
  cases helper with
  | format =>
    have hkept := Registry.keepNumberFormat_alike hregistry.compiled (args.getD 1 .undefined)
    have hkept' := Registry.keepNumberFormat_alike hregistry.compiled' (args.getD 1 .undefined)
    exact ⟨hkept.symm.trans (hregistry.trans hkept'), h.host⟩
  | utcFormat =>
    have hkept := Registry.keepDatePattern_alike hregistry.compiled true (args.getD 1 .undefined)
    have hkept' := Registry.keepDatePattern_alike hregistry.compiled' true (args.getD 1 .undefined)
    exact ⟨hkept.symm.trans (hregistry.trans hkept'), h.host⟩
  | timeFormat =>
    have hkept := Registry.keepDatePattern_alike hregistry.compiled false (args.getD 1 .undefined)
    have hkept' := Registry.keepDatePattern_alike hregistry.compiled' false (args.getD 1 .undefined)
    exact ⟨hkept.symm.trans (hregistry.trans hkept'), h.host⟩
  | _ => exact h

end ChartTemplate
