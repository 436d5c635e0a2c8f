import Mathlib
import ChartTemplate.Proofs.Helper.Effect

/-!
# Scales by name

Helpers share one registry, but a scale sees only the calls that name it, and those that drop all
scales: a run of calls leaves a scale as the run of only these calls does. The invariant that carries
the induction is that two registries have the same scale of the name (`SameScale`): calls that name it
keep it in both (`run_sameScale`), and all others leave it alone (`scale_kept`).
-/

namespace ChartTemplate

open Entries (get?)

variable {σ : Type}

namespace HelperCall

/-- Whether a call drops the scales, or makes, reads, changes or uses the scale of a name. -/
def namesScale (id : String) (c : HelperCall σ) : Bool :=
  match c.helper with
  | .resetScales => true
  | .scale _ | .useScale | .getScale | .setupScale => c.target == id
  | _ => false

/-- Whether there is a scale of a name after a call, by whether there was one before. -/
def declares (id : String) (present : Bool) (c : HelperCall σ) : Bool :=
  match c.helper with
  | .resetScales => false
  | .scale _ => present || c.target == id
  | _ => present

end HelperCall

namespace Registry

open HelperCall (namesScale declares)

variable [HostServices σ] {r r' : Registry} {c : HelperCall σ} {id : String}

/-! ## Calls that do not name the scale -/

/-- **Calls of other names**, axes, variables and formats leave a scale alone. -/
theorem scale_kept (hc : c.namesScale id = false) {a : HelperCall.Answer σ}
    (h : c.run r = .ok (r', a)) : get? r'.scales id = get? r.scales id := by
  unfold namesScale at hc
  cases HelperCall.effect_of_run h with
  | formats hscales => rw [hscales]
  | addScale kind hhelper _ =>
    rw [hhelper, beq_eq_false_iff_ne] at hc
    exact Entries.get?_insert_of_ne hc _
  | useScale hhelper hid _ _ =>
    rw [hhelper, beq_eq_false_iff_ne, HelperCall.target, hid] at hc
    exact Entries.get?_insert_of_ne hc _
  | callScale hhelper _ _ =>
    have hne : c.target ≠ id := by
      rcases hhelper with hhelper | hhelper <;> rwa [hhelper, beq_eq_false_iff_ne] at hc
    exact Entries.get?_insert_of_ne hne _
  | resetScales hhelper =>
    rw [hhelper] at hc
    cases hc
  | _ => rfl

/-! ## Calls that name the scale -/

def SameScale (id : String) (r r' : Registry) : Prop :=
  get? r.scales id = get? r'.scales id

/-- Outcomes that leave the same scale of a name, with the same result. -/
abbrev SameScaleOutcome {ε α : Type} (id : String) (x y : Checked ε (Registry × α)) : Prop :=
  Checked.Rel (SameResult (SameScale id)) x y

theorem sameScale_insert (s : Scale) :
    SameScale id { r with scales := Entries.insert r.scales id s }
      { r' with scales := Entries.insert r'.scales id s } := by
  unfold SameScale
  rw [Entries.get?_insert_self, Entries.get?_insert_self]

theorem addScale_sameScale (h : SameScale id r r') (kind : ScaleKind) (args : List Value) :
    SameScaleOutcome id (Helper.silent (r.addScale kind id args))
      (Helper.silent (r'.addScale kind id args)) := by
  have hcontains : Entries.contains r.scales id = Entries.contains r'.scales id := by
    rw [Entries.contains_eq_isSome, Entries.contains_eq_isSome, h]
  unfold addScale
  rw [hcontains]
  split
  · exact .error _
  · exact .ok ⟨sameScale_insert _, rfl⟩

theorem useScale_sameScale (h : SameScale id r r') (v : Value) :
    SameScaleOutcome id (r.useScale id v) (r'.useScale id v) := by
  unfold useScale
  rw [h]
  split
  · exact .error _
  · rename_i s _
    split
    · exact .error _
    · exact Checked.Rel.after (liftM (s.apply v)) fun a => .ok ⟨sameScale_insert a.1, rfl⟩

theorem callScale_sameScale (h : SameScale id r r') (m : ScaleMethod) (args : List Value) :
    SameScaleOutcome id (r.callScale id m args) (r'.callScale id m args) := by
  unfold callScale
  rw [h]
  split
  · exact .ok ⟨h, rfl⟩
  · exact Checked.Rel.after _ fun a => .ok ⟨sameScale_insert a.1, rfl⟩

/-- **A call that names a scale** does the same to it in both registries, and answers the same. -/
theorem run_sameScale (hc : c.namesScale id = true) (h : SameScale id r r') :
    EndAlike (SameResult (SameScale id)) (c.run r) (c.run r') := by
  let Same (s s' : HelperState σ) : Prop := SameScale id s.registry s'.registry ∧ s.host = s'.host
  have hsettle {x y : Checked RegistryError (Registry × Value)} (hxy : SameScaleOutcome id x y) :
      Checked.Rel (SameResult Same) (HelperState.settle ⟨r, c.host⟩ x)
        (HelperState.settle ⟨r', c.host⟩ y) :=
    settle_rel ⟨h, rfl⟩ (fun _ _ hr => ⟨hr, rfl⟩) hxy
  refine run_rel (S := Same) h (fun _ _ hs => hs) ?_
  unfold namesScale at hc
  unfold HelperCall.on Helper.call
  cases hhelper : c.helper with
  | resetScales => exact .ok ⟨⟨rfl, rfl⟩, rfl⟩
  | scale kind =>
    rw [hhelper, beq_iff_eq] at hc
    subst hc
    exact hsettle (addScale_sameScale h kind _)
  | useScale =>
    rw [hhelper, beq_iff_eq, HelperCall.target, HelperCall.argument] at hc
    dsimp only
    split
    · rename_i text htext
      rw [htext] at hc
      have htext : text = id := hc
      subst htext
      exact hsettle (useScale_sameScale h _)
    · exact .ok ⟨⟨h, rfl⟩, rfl⟩
  | getScale =>
    rw [hhelper, beq_iff_eq] at hc
    subst hc
    exact Checked.Rel.after _ fun m => hsettle (callScale_sameScale h m _)
  | setupScale =>
    rw [hhelper, beq_iff_eq] at hc
    subst hc
    refine Checked.Rel.after _ fun m => hsettle ?_
    exact (callScale_sameScale h m _).bind fun a b hab => .ok ⟨hab.1, rfl⟩
  | _ =>
    rw [hhelper] at hc
    cases hc

/-! ## Making scales -/

theorem run_scale {kind : ScaleKind} (hc : c.helper = .scale kind) :
    c.run r = .ok (match r.addScale kind c.target (c.args.drop 1) with
      | .ok r' => (r', .ok (c.host, .undefined))
      | .error e => (r, .ok (c.host, .text e.message))) := by
  have hcall : c.on ⟨r, c.host⟩ = _ := (HelperCall.Operates.addScale hc).call_eq
  rw [HelperCall.run, hcall, addScale]
  cases Entries.contains r.scales c.target <;> rfl

theorem run_scale_of_free {kind : ScaleKind} (hc : c.helper = .scale kind)
    (hfree : Entries.contains r.scales c.target = false) :
    c.run r = .ok (⟨Entries.insert r.scales c.target (Scale.make kind (c.args.drop 1)), r.axes,
      r.values, r.numberFormats, r.utcPatterns, r.localPatterns⟩, .ok (c.host, .undefined)) := by
  rw [run_scale hc, addScale, hfree]
  rfl

theorem run_scale_of_taken {kind : ScaleKind} (hc : c.helper = .scale kind)
    (htaken : Entries.contains r.scales c.target = true) :
    c.run r = .ok (r, .ok (c.host, .text "Scale redeclared")) := by
  rw [run_scale hc, addScale, htaken]
  rfl

theorem contains_changed {scales : Entries Scale} {key : String} {s : Scale}
    (hs : get? scales key = some s) (s' : Scale) :
    Entries.contains (Entries.insert scales key s') id = Entries.contains scales id := by
  rw [Entries.contains_eq_isSome, Entries.contains_eq_isSome, Entries.get?_insert]
  split
  · rename_i heq
    rw [← heq, hs]
    rfl
  · rfl

theorem contains_kept {a : HelperCall.Answer σ} (h : c.run r = .ok (r', a))
    (hscale : ∀ kind, c.helper ≠ .scale kind) (hreset : c.helper ≠ .resetScales) :
    Entries.contains r'.scales id = Entries.contains r.scales id := by
  cases HelperCall.effect_of_run h with
  | formats hscales => rw [hscales]
  | addScale kind hhelper => exact absurd hhelper (hscale kind)
  | resetScales hhelper => exact absurd hhelper hreset
  | useScale _ _ hs => exact contains_changed hs _
  | callScale _ hs => exact contains_changed hs _
  | _ => rfl

/-- Only constructors make a scale, and only `resetScales` drops it. -/
theorem contains_run {a : HelperCall.Answer σ} (h : c.run r = .ok (r', a)) :
    Entries.contains r'.scales id = c.declares id (Entries.contains r.scales id) := by
  unfold declares
  cases hhelper : c.helper with
  | scale kind =>
    dsimp only
    cases htaken : Entries.contains r.scales c.target with
    | true =>
      rw [run_scale_of_taken hhelper htaken] at h
      cases h
      by_cases hid : c.target = id
      · rw [← hid, htaken]
        rfl
      · rw [beq_eq_false_iff_ne.mpr hid, Bool.or_false]
    | false =>
      rw [run_scale_of_free hhelper htaken] at h
      cases h
      by_cases hid : c.target = id
      · simp [Entries.contains_eq_isSome, hid]
      · simp [Entries.contains_eq_isSome, hid, Entries.get?_insert_of_ne hid]
  | resetScales =>
    have hrun : c.run r = .ok ({ r with scales := [] }, .ok (c.host, .undefined)) := by
      unfold HelperCall.run HelperCall.on Helper.call
      rw [hhelper]
      rfl
    rw [hrun] at h
    cases h
    rfl
  | _ =>
    refine contains_kept h (fun kind hkind => ?_) (fun hreset => ?_)
    · rw [hhelper] at hkind
      cases hkind
    · rw [hhelper] at hreset
      cases hreset

/-! ## Runs of calls -/

theorem exists_of_after_call {steps : List (RegistryStep σ)} {s : Registry}
    (h : r.after (.call c :: steps) = .ok s) :
    ∃ r' a, c.run r = .ok (r', a) ∧ r'.after steps = .ok s := by
  obtain ⟨r', hstep, hrest⟩ := exists_of_after_cons h
  obtain ⟨a, hrun⟩ := exists_run_of_step hstep
  exact ⟨r', a, hrun, hrest⟩

theorem after_call_of_run {steps : List (RegistryStep σ)} {a : HelperCall.Answer σ}
    (h : c.run r = .ok (r', a)) : r.after (.call c :: steps) = r'.after steps := by
  rw [after, List.foldlM_cons, step, h]
  rfl

/-- From registries with the same scale of a name, all calls lead to the same scale as those that
name it. -/
theorem after_sameScale {s : Registry} {calls : List (HelperCall σ)} (h : SameScale id r s)
    (hafter : r.after (calls.map .call) = .ok r') :
    ∃ s', s.after ((calls.filter (namesScale id)).map .call) = .ok s' ∧ SameScale id r' s' := by
  -- `r` makes all calls and `s` only those that name the scale; `SameScale` is kept throughout
  induction calls generalizing r s with
  | nil =>
    cases hafter
    exact ⟨s, rfl, h⟩
  | cons c calls ih =>
    obtain ⟨r₁, a, hrun, hrest⟩ := exists_of_after_call hafter
    cases hc : c.namesScale id with
    | false =>
      rw [List.filter_cons_of_neg (Bool.not_eq_true _ ▸ hc)]
      -- only `r` makes this call, which leaves the scale alone
      have hkept : SameScale id r₁ s := (scale_kept hc hrun).trans h
      exact ih hkept hrest
    | true =>
      have hsame := run_sameScale hc h
      rw [hrun] at hsame
      generalize hrun' : c.run s = y at hsame
      cases hsame with
      | @ok _ b hab =>
        rw [List.filter_cons_of_pos hc, List.map_cons, after_call_of_run hrun']
        exact ih hab.1 hrest

theorem contains_after {calls : List (HelperCall σ)} (h : r.after (calls.map .call) = .ok r') :
    Entries.contains r'.scales id = calls.foldl (fun present c => c.declares id present)
      (Entries.contains r.scales id) := by
  induction calls generalizing r with
  | nil =>
    cases h
    rfl
  | cons c calls ih =>
    obtain ⟨r₁, a, hrun, hrest⟩ := exists_of_after_call h
    rw [ih hrest, contains_run hrun, List.foldl_cons]

/-- **A scale sees only the calls that name it.** After calls on a reset registry a scale is what these
calls alone make of it. A second constructor is refused and changes nothing, and no other call changes
the scale. -/
theorem scale_after_calls {r₀ : Registry} {calls : List (HelperCall σ)} (id : String)
    (h : r₀.reset.after (calls.map .call) = .ok r) :
    (∃ r', r₀.reset.after ((calls.filter (namesScale id)).map .call) = .ok r' ∧
      get? r.scales id = get? r'.scales id) ∧
    (∀ (c : HelperCall σ) kind, c.helper = .scale kind → c.target = id →
      calls.foldl (fun present c => c.declares id present) false = true →
      c.run r = .ok (r, .ok (c.host, .text "Scale redeclared"))) ∧
    ∀ (c : HelperCall σ) r' a, c.namesScale id = false → c.run r = .ok (r', a) →
      get? r'.scales id = get? r.scales id := by
  refine ⟨after_sameScale rfl h, fun c kind hkind hid hdeclared => ?_,
    fun c r' a hc hrun => scale_kept hc hrun⟩
  have hcontains : Entries.contains r.scales id = true := (contains_after h).trans hdeclared
  exact run_scale_of_taken hkind (hid ▸ hcontains)

def plainCall (helper : Helper) (args : List Value) : HelperCall Palette :=
  ⟨helper, args, .empty, .ofColors [], .utc⟩

/-- Calls that make a scale of colors, let its domain grow, and draw an axis along it. -/
def colorCalls : List (HelperCall Palette) :=
  [plainCall (.scale .ordinal) [.text "c", .array [.text "a"], .array [.text "red", .text "blue"]],
    plainCall (.scale .ordinal) [.text "d", .array []],
    plainCall .useScale [.text "d", .text "a"],
    plainCall .useScale [.text "c", .text "b"],
    plainCall (.axis .bottom) [.text "x", .text "c"],
    plainCall .setupAxis [.text "x", .text "tickValues", .array [.text "e"]],
    plainCall .useAxis [.text "x"]]

/-- Neither another scale nor the axis adds to the colors. -/
theorem scale_after_colorCalls :
    ∃ r, empty.reset.after (colorCalls.map .call) = .ok r ∧
      get? r.scales "c" =
        some (.ordinal ⟨[.text "a", .text "b"], [.text "red", .text "blue"], none⟩) ∧
      (∃ r', empty.reset.after ((colorCalls.filter (namesScale "c")).map .call) = .ok r' ∧
        get? r.scales "c" = get? r'.scales "c") ∧
      (plainCall (.scale .linear) [.text "c"]).run r =
        .ok (r, .ok (.ofColors [], .text "Scale redeclared")) := by
  obtain ⟨r, hr, hscale⟩ : ∃ r, empty.reset.after (colorCalls.map .call) = .ok r ∧
    get? r.scales "c" =
      some (.ordinal ⟨[.text "a", .text "b"], [.text "red", .text "blue"], none⟩) := ⟨_, rfl, rfl⟩
  obtain ⟨hsame, hredeclared, -⟩ := scale_after_calls "c" hr
  exact ⟨r, hr, hscale, hsame, hredeclared _ .linear rfl rfl rfl⟩

end Registry

end ChartTemplate
