import Mathlib
import ChartTemplate.Proofs.Format.CutOff
import ChartTemplate.Proofs.Helper.Effect
import ChartTemplate.Proofs.InPlace.CutOff

/-!
# Where calls of helpers are cut off

Helpers that use scales, formats and local clocks are cut off where these are. `Axis.CutOff` and
`HelperCall.CutOff` list how; a call has a result or is refused in all other cases
(`HelperCall.call_eq_error_iff`).
-/

namespace ChartTemplate

open Entries (get?)

variable {f : Fault} {σ : Type}

/-! ## Local clocks -/

/-- Local clocks would show a date out of range. -/
def TimeZone.Dateless (z : TimeZone) (t : Instant) : Prop :=
  Instant.ofSeconds? (t.seconds + z.offset t) t.nanos = none

theorem TimeZone.clockOffset_eq_error_iff (z : TimeZone) (universal : Bool) (t : Instant) :
    z.clockOffset universal t = .error f ↔ universal = false ∧ z.Dateless t ∧ f = .dateRange := by
  unfold clockOffset Dateless
  cases universal with
  | true => exact iff_of_false nofun nofun
  | false =>
    rw [if_neg Bool.false_ne_true]
    cases Instant.ofSeconds? (t.seconds + z.offset t) t.nanos with
    | some _ => exact iff_of_false nofun nofun
    | none => simp [eq_comm]

/-! ## Axes -/

/-- The label is an infinite number that is to be written with an exponent. -/
inductive TickLabels.CutOff : TickLabels → Value → Prop
  | number {format : NumberFormat} {v : Value} (h : format.CutOff v.toNumber) : CutOff (.number format) v
  | log {format : NumberFormat} {base limit : Float} {reflect : Bool} {v : Value}
      (hnear : distance base v.toNumber reflect ≤ limit) (h : format.CutOff v.toNumber) :
      CutOff (.log format base limit reflect) v

theorem TickLabels.label_eq_error_iff (labels : TickLabels) (v : Value) :
    labels.label v = .error f ↔ labels.CutOff v ∧ f = .noDigits := by
  cases labels with
  | number format =>
    rw [label, NumberFormat.format_eq_error_iff]
    refine and_congr_left' ⟨.number, fun h => ?_⟩
    cases h
    assumption
  | log format base limit reflect =>
    unfold label
    dsimp only
    split
    · rename_i hnear
      rw [NumberFormat.format_eq_error_iff]
      refine and_congr_left' ⟨.log hnear, fun h => ?_⟩
      cases h
      assumption
    · rename_i hfar
      refine iff_of_false (fun h => by cases h) fun h => ?_
      cases h.1
      contradiction
  | _ => exact iff_of_false (fun h => by cases h) fun h => by cases h.1

theorem Scale.cutOff_apply_iff {s t : Scale} {v y : Value} (h : s.apply v = .ok (t, y)) (w : Value) :
    t.CutOff (.apply w) f ↔ s.CutOff (.apply w) f := by
  cases s with
  | continuous c =>
    unfold apply at h
    dsimp only at h
    cases happly : c.apply v with
    | error f => rw [happly] at h; cases h
    | ok y =>
      rw [happly] at h
      cases h
      rfl
  | _ =>
    cases h
    exact iff_of_false (fun h => by cases h) fun h => by cases h

namespace Axis

variable {a : Axis} {s : Scale}

/-- The ways in which an axis cannot be drawn: its ticks start in a week that has no date, a value has
no position, or a value has no label. -/
inductive CutOff (a : Axis) (s : Scale) : Prop where
  | values {c : Continuous} (hs : s = .continuous c) (hown : a.tickValues = none)
      (h : c.NoFirstTick a.count)
  | position {vs : List Value} {v : Value} {f : Fault} (hvalues : a.values s = .ok vs) (hv : v ∈ vs)
      (h : s.CutOff (.apply v) f)
  | label {vs : List Value} {v : Value} (hvalues : a.values s = .ok vs) (hv : v ∈ vs)
      (h : (a.labels s).CutOff v)

theorem values_eq_error_iff :
    (∃ f, a.values s = .error f) ↔
      ∃ c, s = .continuous c ∧ a.tickValues = none ∧ c.NoFirstTick a.count := by
  unfold values
  cases a.tickValues with
  | some vs =>
    refine iff_of_false ?_ ?_
    · rintro ⟨f, h⟩
      cases h
    · rintro ⟨c, -, h, -⟩
      cases h
  | none =>
    cases s with
    | continuous c =>
      simp [Scale.axisValues, map_eq_error_iff, Continuous.ticks_eq_error_iff]
    | _ =>
      refine iff_of_false ?_ ?_
      · rintro ⟨f, h⟩
        cases h
      · rintro ⟨c, h, -⟩
        cases h

theorem ticksMarkup_eq_error_iff (labels : TickLabels) (center : Float) (vs : List Value) :
    (∃ f, a.ticksMarkup labels center s vs = .error f) ↔
      ∃ v ∈ vs, (∃ f, s.CutOff (.apply v) f) ∨ labels.CutOff v := by
  induction vs generalizing s with
  | nil =>
    refine iff_of_false ?_ ?_
    · rintro ⟨f, h⟩
      cases h
    · rintro ⟨v, h, -⟩
      cases h
  | cons v vs ih =>
    rw [List.exists_mem_cons_iff]
    cases happly : s.apply v with
    | error f =>
      have hmarkup : a.ticksMarkup labels center s (v :: vs) = .error f := by
        rw [ticksMarkup, happly]
        rfl
      exact iff_of_true ⟨f, hmarkup⟩ (.inl (.inl ⟨f, (s.apply_eq_error_iff v).1 happly⟩))
    | ok r =>
      obtain ⟨t, y⟩ := r
      have hposition : ¬ ∃ f, s.CutOff (.apply v) f := by
        rintro ⟨f, h⟩
        rw [← Scale.apply_eq_error_iff, happly] at h
        cases h
      have hrest := ih (s := t)
      simp only [Scale.cutOff_apply_iff happly] at hrest
      rw [or_iff_right hposition, ← hrest]
      cases hlabel : labels.label v with
      | error f =>
        have hmarkup : a.ticksMarkup labels center s (v :: vs) = .error f := by
          rw [ticksMarkup, happly, ok_bind]
          dsimp only
          rw [hlabel]
          rfl
        exact iff_of_true ⟨f, hmarkup⟩ (.inl ((labels.label_eq_error_iff v).1 hlabel).1)
      | ok text =>
        have hlabelled : ¬ labels.CutOff v := fun h => by
          rw [(labels.label_eq_error_iff v).2 ⟨h, rfl⟩] at hlabel
          cases hlabel
        have hmarkup : a.ticksMarkup labels center s (v :: vs) =
            a.ticksMarkup labels center t vs >>= fun rest =>
              pure (a.tickMarkup (y.toNumber + center + a.offset) (escapeMarkup text) :: rest) := by
          rw [ticksMarkup, happly, ok_bind]
          dsimp only
          rw [hlabel]
          rfl
        simp only [hmarkup, bind_pure_eq_error_iff, hlabelled, false_or]

theorem render_eq_error_iff : (∃ f, a.render s = .error f) ↔ a.CutOff s := by
  unfold render
  cases hvalues : a.values s with
  | error f =>
    obtain ⟨c, hs, hown, h⟩ := values_eq_error_iff.1 ⟨f, hvalues⟩
    exact iff_of_true ⟨f, rfl⟩ (.values hs hown h)
  | ok vs =>
    have hticks := ticksMarkup_eq_error_iff (a := a) (s := s) (a.labels s) (a.center s) vs
    show (∃ f, (a.ticksMarkup _ _ s vs >>= fun ticks => pure _) = .error f) ↔ _
    simp only [bind_pure_eq_error_iff]
    rw [hticks]
    constructor
    · rintro ⟨v, hv, ⟨f, h⟩ | h⟩
      · exact .position hvalues hv h
      · exact .label hvalues hv h
    · intro h
      cases h with
      | values hs hown h =>
        obtain ⟨f, herror⟩ := values_eq_error_iff.2 ⟨_, hs, hown, h⟩
        rw [hvalues] at herror
        cases herror
      | position hvalues' hv h =>
        rw [hvalues] at hvalues'
        cases hvalues'
        exact ⟨_, hv, .inl ⟨_, h⟩⟩
      | label hvalues' hv h =>
        rw [hvalues] at hvalues'
        cases hvalues'
        exact ⟨_, hv, .inr h⟩

end Axis

/-! ## Registries -/

theorem Checked.adapt_run_eq_error_iff {ε δ α : Type} (x : Checked ε α) (g : ε → δ) :
    (x.adapt g).run = .error f ↔ x.run = .error f := by
  match x with
  | .error f' => exact ⟨fun h => by cases h; rfl, fun h => by cases h; rfl⟩
  | .ok (.error e) => exact iff_of_false (fun h => by cases h) fun h => by cases h
  | .ok (.ok a) => exact iff_of_false (fun h => by cases h) fun h => by cases h

theorem Checked.adapt_run_refused_iff {ε δ α : Type} {x : Checked δ α} {g : δ → ε} {e : ε} :
    (x.adapt g).run = .ok (.error e) ↔ ∃ d, x.run = .ok (.error d) ∧ g d = e := by
  match x with
  | .error f => exact iff_of_false nofun nofun
  | .ok (.error d) =>
    show Except.ok (Except.error (g d)) = _ ↔ ∃ d', Except.ok (Except.error d) = _ ∧ _
    simp
  | .ok (.ok a) => exact iff_of_false nofun nofun

namespace Registry

variable {r : Registry}

theorem useScale_eq_error_iff (id : String) (v : Value) :
    (r.useScale id v).run = .error f ↔
      id.isEmpty = false ∧ ∃ s, get? r.scales id = some s ∧ s.CutOff (.apply v) f := by
  unfold useScale
  cases hs : get? r.scales id with
  | none =>
    refine iff_of_false (fun h => by cases h) ?_
    rintro ⟨-, s, h, -⟩
    cases h
  | some s =>
    cases hid : id.isEmpty with
    | true =>
      refine iff_of_false (fun h => by cases h) ?_
      rintro ⟨h, -⟩
      cases h
    | false =>
      refine (Checked.lift_bind_pure_run_eq_error_iff _ _).trans ?_
      simp [Scale.apply_eq_error_iff]

theorem callScale_eq_error_iff (id : String) (m : ScaleMethod) (args : List Value) :
    (r.callScale id m args).run = .error f ↔
      ∃ s, get? r.scales id = some s ∧ s.CutOff (.call m args) f := by
  unfold callScale
  cases hs : get? r.scales id with
  | none =>
    refine iff_of_false (fun h => by cases h) ?_
    rintro ⟨s, h, -⟩
    cases h
  | some s =>
    dsimp only
    rw [Checked.bind_pure_run_eq_error_iff, Checked.adapt_run_eq_error_iff, Scale.call_eq_error_iff]
    simp

theorem drawAxis_eq_error_iff (id : String) :
    (∃ f, (r.drawAxis id).run = .error f) ↔
      ∃ a s, get? r.axes id = some a ∧ get? r.scales a.scale = some s ∧ a.CutOff s := by
  unfold drawAxis
  cases ha : get? r.axes id with
  | none =>
    refine iff_of_false ?_ ?_
    · rintro ⟨f, h⟩
      cases h
    · rintro ⟨a, s, h, -⟩
      cases h
  | some a =>
    cases hs : get? r.scales a.scale with
    | none =>
      dsimp only
      rw [hs]
      refine iff_of_false ?_ ?_
      · rintro ⟨f, h⟩
        cases h
      · rintro ⟨a, s, h, hs', -⟩
        cases h
        rw [hs] at hs'
        cases hs'
    | some s =>
      dsimp only
      simp only [hs, Checked.lift_bind_pure_run_eq_error_iff, Axis.render_eq_error_iff]
      simp [hs]

theorem format_eq_error_iff (v pattern : Value) :
    (r.format v pattern).run = .error f ↔ ∃ x text r' fmt, v = .number x ∧ pattern = .text text ∧
      r.numberFormat text = .ok (r', fmt) ∧ fmt.CutOff x ∧ f = .noDigits := by
  unfold format
  split
  · refine iff_of_false (fun h => by cases h) ?_
    rintro ⟨x, text, r', fmt, h, -⟩
    cases h
  · rename_i x text
    rw [Checked.liftError_bind_run_eq_error_iff]
    simp only [Checked.lift_bind_pure_run_eq_error_iff, NumberFormat.format_eq_error_iff]
    simp
  · rename_i hnumber hnull
    refine iff_of_false (fun h => by cases h) ?_
    rintro ⟨x, text, r', fmt, rfl, htext, -⟩
    simp at *
  · refine iff_of_false (fun h => by cases h) ?_
    rintro ⟨x, text, r', fmt, rfl, rfl, -⟩
    simp at *

theorem formatDate_eq_error_iff (zone : TimeZone) (utc : Bool) (v pattern : Value) :
    (r.formatDate zone utc v pattern).run = .error f ↔ ∃ t text, v.toInstant? = some t ∧
      pattern = .text text ∧ utc = false ∧ zone.Dateless t ∧ f = .dateRange := by
  unfold formatDate
  split
  · exact iff_of_false nofun nofun
  · rename_i text _
    cases v.toInstant? with
    | none => exact iff_of_false nofun nofun
    | some t =>
      refine (Checked.lift_bind_pure_run_eq_error_iff _ _).trans ?_
      simp [TimeZone.clockOffset_eq_error_iff]
  · rename_i htext
    refine iff_of_false nofun ?_
    rintro ⟨t, text, -, rfl, -⟩
    exact htext text rfl

end Registry

/-! ## Calls -/

theorem HelperState.settle_run_eq_error_iff (s : HelperState σ)
    (x : Checked RegistryError (Registry × Value)) :
    (s.settle x).run = .error f ↔ x.run = .error f := by
  match x with
  | .error f' => exact ⟨fun h => by cases h; rfl, fun h => by cases h; rfl⟩
  | .ok (.ok a) => exact iff_of_false (fun h => by cases h) fun h => by cases h
  | .ok (.error e) =>
    refine iff_of_false (fun h => ?_) fun h => by cases h
    cases e with
    | scale e => cases e <;> cases h
    | _ => cases h

theorem Helper.silent_run_ne_error (x : Except RegistryError Registry) : (silent x).run ≠ .error f :=
  fun h => Checked.liftError_run_ne_error x ((Checked.bind_pure_run_eq_error_iff _ _).1 h)

namespace HelperCall

/-- The ways in which a call is cut off: the scale, the axis, the format or the local clock that it works
with is. -/
inductive CutOff (c : HelperCall σ) (r : Registry) : Prop where
  | useScale {id : String} {s : Scale} {f : Fault} (hc : c.helper = .useScale)
      (hid : c.argument 0 = .text id) (hnamed : id.isEmpty = false) (hs : get? r.scales id = some s)
      (h : s.CutOff (.apply (c.argument 1)) f)
  | callScale {s : Scale} {m : ScaleMethod} {f : Fault}
      (hc : c.helper = .getScale ∨ c.helper = .setupScale)
      (hm : ScaleMethod.ofName? (c.argument 1).toText = some m) (hs : get? r.scales c.target = some s)
      (h : s.CutOff (.call m (c.args.drop 2)) f)
  | drawAxis {a : Axis} {s : Scale} (hc : c.helper = .useAxis) (ha : get? r.axes c.target = some a)
      (hs : get? r.scales a.scale = some s) (h : a.CutOff s)
  | format {x : Float} {text : String} {r' : Registry} {fmt : NumberFormat} (hc : c.helper = .format)
      (hx : c.argument 0 = .number x) (htext : c.argument 1 = .text text)
      (hformat : r.numberFormat text = .ok (r', fmt)) (h : fmt.CutOff x)
  | timeFormat {t : Instant} {text : String} (hc : c.helper = .timeFormat)
      (ht : (c.argument 0).toInstant? = some t) (htext : c.argument 1 = .text text)
      (h : c.zone.Dateless t)

variable [HostServices σ]

theorem call_error_of_cutOff {c : HelperCall σ} {s : HelperState σ} (h : c.CutOff s.registry) :
    ∃ f, (c.on s).run = .error f := by
  have hcall {x : Checked RegistryError (Registry × Value)} (hx : c.Operates s.registry x)
      (hcut : ∃ f, x.run = .error f) : ∃ f, (c.on s).run = .error f := by
    rw [hx.call_eq]
    exact hcut.imp fun f hf => (s.settle_run_eq_error_iff _).2 hf
  cases h with
  | useScale hc hid hnamed hs h =>
    exact hcall (.useScale hc hid) ⟨_, (Registry.useScale_eq_error_iff _ _).2 ⟨hnamed, _, hs, h⟩⟩
  | callScale hc hm hs h =>
    have hscale := (Registry.callScale_eq_error_iff _ _ _).2 ⟨_, hs, h⟩
    rcases hc with hc | hc
    · exact hcall (.getScale hc hm) ⟨_, hscale⟩
    · exact hcall (.setupScale hc hm) ⟨_, (Checked.bind_pure_run_eq_error_iff _ _).2 hscale⟩
  | drawAxis hc ha hs h =>
    obtain ⟨f, hdraw⟩ := (Registry.drawAxis_eq_error_iff _).2 ⟨_, _, ha, hs, h⟩
    exact hcall (.drawAxis hc) ⟨f, (Checked.bind_pure_run_eq_error_iff _ _).2 hdraw⟩
  | format hc hx htext hformat h =>
    exact hcall (.format hc)
      ⟨_, (Registry.format_eq_error_iff _ _).2 ⟨_, _, _, _, hx, htext, hformat, h, rfl⟩⟩
  | timeFormat hc ht htext h =>
    exact hcall (.timeFormat hc)
      ⟨_, (Registry.formatDate_eq_error_iff _ _ _ _).2 ⟨_, _, ht, htext, rfl, h, rfl⟩⟩

omit [HostServices σ] in
/-- An operation that is cut off is one of those that work with scales, axes, formats and clocks. -/
theorem Operates.cutOff {c : HelperCall σ} {r : Registry} {x : Checked RegistryError (Registry × Value)}
    (h : c.Operates r x) (hcut : x.run = .error f) : c.CutOff r := by
  cases h with
  | format hc =>
    obtain ⟨x, text, r', fmt, hx, htext, hformat, hcut, -⟩ := (Registry.format_eq_error_iff _ _).1 hcut
    exact .format hc hx htext hformat hcut
  | useScale hc hid =>
    obtain ⟨hnamed, t, hs, hcut⟩ := (Registry.useScale_eq_error_iff _ _).1 hcut
    exact .useScale hc hid hnamed hs hcut
  | getScale hc hm =>
    obtain ⟨t, hs, hcut⟩ := (Registry.callScale_eq_error_iff _ _ _).1 hcut
    exact .callScale (.inl hc) hm hs hcut
  | setupScale hc hm =>
    obtain ⟨t, hs, hcut⟩ :=
      (Registry.callScale_eq_error_iff _ _ _).1 ((Checked.bind_pure_run_eq_error_iff _ _).1 hcut)
    exact .callScale (.inr hc) hm hs hcut
  | drawAxis hc =>
    obtain ⟨a, t, ha, hs, hcut⟩ :=
      (Registry.drawAxis_eq_error_iff _).1 ⟨f, (Checked.bind_pure_run_eq_error_iff _ _).1 hcut⟩
    exact .drawAxis hc ha hs hcut
  | utcFormat =>
    obtain ⟨t, text, -, -, hlocal, -⟩ := (Registry.formatDate_eq_error_iff _ _ _ _).1 hcut
    cases hlocal
  | timeFormat hc =>
    obtain ⟨t, text, ht, htext, -, hclock, -⟩ := (Registry.formatDate_eq_error_iff _ _ _ _).1 hcut
    exact .timeFormat hc ht htext hclock
  | addScale | addAxis | configureAxis => exact absurd hcut (Helper.silent_run_ne_error _)

theorem cutOff_of_call_error {c : HelperCall σ} {s : HelperState σ}
    (h : (c.on s).run = .error f) : c.CutOff s.registry := by
  rcases c.call_cases s with ⟨x, hx⟩ | hanswer
  · rw [hx.call_eq, s.settle_run_eq_error_iff] at h
    exact hx.cutOff h
  · generalize c.on s = y at h hanswer
    cases hanswer <;> cases h

/-- **A call** of a helper has a result or is refused, unless it is in the list. -/
theorem call_eq_error_iff (c : HelperCall σ) (s : HelperState σ) :
    (∃ f, (c.on s).run = .error f) ↔ c.CutOff s.registry :=
  ⟨fun ⟨_, h⟩ => cutOff_of_call_error h, call_error_of_cutOff⟩

end HelperCall

end ChartTemplate
