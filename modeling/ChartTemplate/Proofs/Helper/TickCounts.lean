import Mathlib
import ChartTemplate.Proofs.Helper.CutOff
import ChartTemplate.Proofs.Value.Passed

/-!
# Tick counts that are refused

Whoever is asked for ticks or round ends looks at the requested count before anything else, and refuses one
that is infinite or too great. A sequential or diverging scale with an empty domain does not look: it answers
with no ticks, whatever the count (`Scale.Heedless`). `Rendering.refused_counts` : this is the only way around
the check, and calls of helpers fail for their counts in no other case.
-/

namespace ChartTemplate

open Entries (get?)

/-! ## Counts -/

/-- The number of ticks that arguments ask for: ten if the first one is missing or null. -/
def requestedCount (args : List Value) : Float :=
  let v := args.headD .undefined
  if v.isNullish then 10 else v.toNumber

/-- A count that is infinite or too great. -/
def Oversized (count : Float) : Prop :=
  count.isInf = true ∨ maxTickCount < count

instance (count : Float) : Decidable (Oversized count) :=
  inferInstanceAs (Decidable (_ ∨ _))

theorem oversized_iff (count : Float) :
    Oversized count ↔ (count.isNaN || (count.isFinite && decide (count ≤ maxTickCount))) = false := by
  have hmax : maxTickCount.isNaN = false := by decide
  cases hnan : count.isNaN with
  | true =>
    have hinf := isInf_of_isNaN hnan
    have hlt : ¬ maxTickCount < count := fun h => by
      cases hnan.symm.trans (Float.isNaN_of_lt h).2
    simp [Oversized, hinf, hlt]
  | false =>
    have hfinite : count.isInf = true ↔ count.isFinite = false := by
      rw [← Bool.not_eq_true, isFinite_iff, hnan]
      simp
    rw [Oversized, ← Float.not_le hnan hmax, hfinite, Bool.false_or, Bool.and_eq_false_iff,
      decide_eq_false_iff_not]

theorem tickCount_eq (args : List Value) : tickCount (args.headD .undefined) =
    if Oversized (requestedCount args) then .error ⟨requestedCount args⟩ else .ok (requestedCount args) := by
  have hcheck : tickCount (args.headD .undefined) =
      if (requestedCount args).isNaN ||
        ((requestedCount args).isFinite && decide (requestedCount args ≤ maxTickCount))
      then .ok (requestedCount args) else .error ⟨requestedCount args⟩ := rfl
  have hiff := oversized_iff (requestedCount args)
  rw [hcheck]
  split
  · next hadmitted => rw [if_neg (by rw [hiff, hadmitted]; exact nofun)]
  · next hrefused => rw [if_pos (hiff.2 (Bool.eq_false_iff.2 hrefused))]

theorem countArgument_eq (args : List Value) : countArgument args =
    if Oversized (requestedCount args) then .error (.tickCount ⟨requestedCount args⟩)
    else .ok (requestedCount args) := by
  rw [countArgument, tickCount_eq]
  split <;> rfl

theorem countArgument_eq_error_iff (args : List Value) (e : ScaleError) :
    countArgument args = .error e ↔
      Oversized (requestedCount args) ∧ e = .tickCount ⟨requestedCount args⟩ := by
  rw [countArgument_eq]
  split <;> simp [*, eq_comm]

/-! ## Scales -/

def ScaleKind.hasTicks : ScaleKind → Bool
  | .linear | .log | .pow | .radial | .time | .sequential | .diverging | .quantize => true
  | .threshold | .band | .point | .ordinal => false

variable {m : ScaleMethod} {args : List Value}

theorem Continuous.call_refused_iff (hm : m = .ticks ∨ m = .nice) (c : Continuous) (e : ScaleError) :
    (c.call m args).run = .ok (.error e) ↔ countArgument args = .error e := by
  rcases hm with rfl | rfl
  · rw [call_ticks, Checked.liftError_bind_run_refused_iff]
    refine or_iff_left ?_
    rintro ⟨count, -, h⟩
    exact Checked.lift_bind_pure_run_not_refused _ _ h
  · rw [call_nice, Checked.liftError_bind_run_refused_iff]
    refine or_iff_left ?_
    rintro ⟨count, -, h⟩
    exact Checked.lift_bind_pure_run_not_refused _ _ h

theorem Sequential.call_refused_iff {c : Sequential} (hm : m = .nice ∨ m = .ticks ∧ c.domain ≠ [])
    (e : ScaleError) : c.call m args = .error e ↔ countArgument args = .error e := by
  rcases hm with rfl | ⟨rfl, hdomain⟩
  · rw [call_nice, bind_pure_eq_error_iff]
  · obtain ⟨x, xs, hxs⟩ := List.exists_cons_of_ne_nil hdomain
    have hends : endsOf? c.domain = some (x, xs.getLastD x) := by rw [hxs]; rfl
    rw [call_ticks, hends]
    exact bind_pure_eq_error_iff _ _

theorem Quantize.call_refused_iff (hm : m = .ticks ∨ m = .nice) (q : Quantize) (e : ScaleError) :
    q.call m args = .error e ↔ countArgument args = .error e := by
  rcases hm with rfl | rfl
  · rw [call_ticks, bind_pure_eq_error_iff]
  · rw [call_nice, bind_pure_eq_error_iff]

namespace Scale

variable {s : Scale}

/-- The ticks of an empty domain are asked for. -/
def Heedless (s : Scale) (m : ScaleMethod) : Prop :=
  m = .ticks ∧ ∃ c, s = .sequential c ∧ c.domain = []

structure Counts (s : Scale) (m : ScaleMethod) : Prop where
  method : m = .ticks ∨ m = .nice
  kind : s.kind.hasTicks = true
  heeds : ¬ s.Heedless m

theorem hasTicks_continuous (c : Continuous) : (continuous c).kind.hasTicks = true := by
  show c.kind.hasTicks = true
  unfold Continuous.kind
  cases c.transform <;> rfl

theorem hasTicks_sequential (c : Sequential) : (sequential c).kind.hasTicks = true := by
  show c.kind.hasTicks = true
  unfold Sequential.kind
  split <;> rfl

theorem hasTicks_band (b : Band) : (band b).kind.hasTicks = false := by
  show b.kind.hasTicks = false
  unfold Band.kind
  split <;> rfl

theorem call_refused_iff (h : s.Counts m) (e : ScaleError) :
    (s.call m args).run = .ok (.error e) ↔ countArgument args = .error e := by
  obtain ⟨hm, hkind, hheeds⟩ := h
  cases s with
  | continuous c => exact Checked.bind_pure_run_refused_iff.trans (c.call_refused_iff hm e)
  | sequential c =>
    refine Checked.bind_pure_run_refused_iff.trans (Checked.liftError_run_refused_iff.trans ?_)
    refine Sequential.call_refused_iff (hm.symm.imp_right fun hticks => ⟨hticks, fun hdomain => ?_⟩) e
    exact hheeds ⟨hticks, c, rfl, hdomain⟩
  | quantize q =>
    exact Checked.bind_pure_run_refused_iff.trans
      (Checked.liftError_run_refused_iff.trans (q.call_refused_iff hm e))
  | threshold c | ordinal c => cases hkind
  | band b => cases (hasTicks_band b).symm.trans hkind

theorem call_unsupported (hm : m = .ticks ∨ m = .nice) (hkind : s.kind.hasTicks = false) :
    (s.call m args).run = .ok (.error (.unsupported m s.kind)) := by
  cases s with
  | continuous c => cases (hasTicks_continuous c).symm.trans hkind
  | sequential c => cases (hasTicks_sequential c).symm.trans hkind
  | quantize q => cases hkind
  | threshold c | ordinal c | band c => rcases hm with rfl | rfl <;> cases args <;> rfl

theorem call_heedless (h : s.Heedless m) : (s.call m args).run = .ok (.ok (s, numberArray [])) := by
  obtain ⟨rfl, ⟨diverging, domain, range, clamp, unknown⟩, rfl, rfl⟩ := h
  cases args <;> rfl

theorem call_not_refused (hticks : m ≠ .ticks) (hnice : m ≠ .nice) (e : TickCountError) :
    (s.call m args).run ≠ .ok (.error (.tickCount e)) := by
  intro h
  cases s with
  | continuous c =>
    rw [call, Checked.bind_pure_run_refused_iff] at h
    obtain ⟨transform, domain, range, clamp, rounds, unknown⟩ := c
    cases m <;> cases args <;> cases transform <;>
      first | contradiction | cases h | exact Checked.lift_bind_pure_run_not_refused _ _ h
  | band b =>
    obtain ⟨⟨point, domain, start, stop, inner, outer, align, rounds⟩, layout⟩ := b
    rw [call, Checked.bind_pure_run_refused_iff, Checked.liftError_run_refused_iff] at h
    cases m <;> cases args <;> cases point <;> first | contradiction | cases h
  | sequential c | quantize c | threshold c | ordinal c =>
    rw [call, Checked.bind_pure_run_refused_iff, Checked.liftError_run_refused_iff] at h
    cases m <;> cases args <;> first | contradiction | cases h

theorem refused_count_iff (s : Scale) (m : ScaleMethod) (args : List Value) (e : TickCountError) :
    (s.call m args).run = .ok (.error (.tickCount e)) ↔
      s.Counts m ∧ Oversized (requestedCount args) ∧ e = ⟨requestedCount args⟩ := by
  by_cases hm : m = .ticks ∨ m = .nice
  · cases hkind : s.kind.hasTicks with
    | false =>
      rw [call_unsupported hm hkind]
      refine iff_of_false nofun ?_
      rintro ⟨hcounts, -⟩
      cases hkind.symm.trans hcounts.kind
    | true =>
      by_cases hheedless : s.Heedless m
      · rw [call_heedless hheedless]
        refine iff_of_false nofun ?_
        rintro ⟨hcounts, -⟩
        exact hcounts.heeds hheedless
      · have hcounts : s.Counts m := ⟨hm, hkind, hheedless⟩
        rw [call_refused_iff hcounts, countArgument_eq_error_iff]
        simp [hcounts]
  · obtain ⟨hticks, hnice⟩ := not_or.1 hm
    refine iff_of_false (call_not_refused hticks hnice e) ?_
    rintro ⟨hcounts, -⟩
    exact hm hcounts.method

end Scale

/-! ## Axes -/

/-- The arguments of which an axis looks at the first for a count. -/
def AxisMethod.counted? (m : AxisMethod) (args : List Value) : Option (List Value) :=
  match m with
  | .ticks => some args
  | .tickArguments => some ((args.headD .undefined).items?.getD [])
  | _ => none

theorem Axis.checkCount_eq_error_iff (args : List Value) (e : TickCountError) :
    checkCount args = .error (.tickCount e) ↔
      Oversized (requestedCount args) ∧ e = ⟨requestedCount args⟩ := by
  rw [checkCount, tickCount_eq]
  by_cases hover : Oversized (requestedCount args)
  · rw [if_pos hover]
    show Except.error (AxisError.tickCount _) = _ ↔ _
    simp [hover, eq_comm]
  · rw [if_neg hover]
    exact iff_of_false nofun fun h => hover h.1

theorem Axis.refused_count_iff (a : Axis) (m : AxisMethod) (args : List Value) (e : TickCountError) :
    a.configure m args = .error (.tickCount e) ↔ ∃ asked, m.counted? args = some asked ∧
      Oversized (requestedCount asked) ∧ e = ⟨requestedCount asked⟩ := by
  have hchecked (asked : List Value) (b : Axis) :
      (checkCount asked >>= fun _ => pure b) = .error (.tickCount e) ↔
        Oversized (requestedCount asked) ∧ e = ⟨requestedCount asked⟩ := by
    rw [bind_pure_eq_error_iff, checkCount_eq_error_iff]
  cases m with
  | ticks => exact (hchecked _ _).trans (by simp [AxisMethod.counted?])
  | tickArguments => exact (hchecked _ _).trans (by simp [AxisMethod.counted?])
  | tickFormat =>
    refine iff_of_false ?_ (by simp [AxisMethod.counted?])
    intro h
    unfold configure at h
    dsimp only at h
    split at h
    · cases h
    · split at h <;> cases h
  | _ => exact iff_of_false nofun (by simp [AxisMethod.counted?])

/-! ## Registries -/

def RegistryError.count? : RegistryError → Option TickCountError
  | .tickCount e | .scale (.tickCount e) => some e
  | _ => none

theorem HelperState.settle_refused_iff {σ : Type} (s : HelperState σ) (x : Checked RegistryError (Registry × Value))
    (e : TickCountError) :
    (s.settle x).run = .ok (.error (.tickCount e)) ↔ ∃ e', x.run = .ok (.error e') ∧ e'.count? = some e := by
  match x with
  | .error f => exact iff_of_false nofun nofun
  | .ok (.ok a) => exact iff_of_false nofun nofun
  | .ok (.error e') =>
    have hresult : ∀ r, Except.ok (Except.error e') = (.ok (.error r) : Except Fault (Except RegistryError
        (Registry × Value))) ↔ e' = r := by simp
    show _ ↔ ∃ r, Except.ok (Except.error e') = _ ∧ _
    simp only [hresult, exists_eq_left']
    cases e' with
    | tickCount c => exact ⟨fun h => by cases h; rfl, fun h => by cases h; rfl⟩
    | scale c =>
      cases c with
      | tickCount c => exact ⟨fun h => by cases h; rfl, fun h => by cases h; rfl⟩
      | unsupported m k => exact iff_of_false nofun nofun
    | _ => exact iff_of_false nofun nofun

namespace Registry

variable {r : Registry}

theorem callScale_refused_iff (id : String) (m : ScaleMethod) (args : List Value) (e : TickCountError) :
    (∃ e', (r.callScale id m args).run = .ok (.error e') ∧ e'.count? = some e) ↔
      ∃ s, get? r.scales id = some s ∧ (s.call m args).run = .ok (.error (.tickCount e)) := by
  unfold callScale
  cases hs : get? r.scales id with
  | none =>
    refine iff_of_false ?_ (by simp)
    rintro ⟨e', h, -⟩
    cases h
  | some s =>
    simp only [Checked.bind_pure_run_refused_iff, Checked.adapt_run_refused_iff]
    constructor
    · rintro ⟨_, ⟨d, hd, rfl⟩, hcount⟩
      cases d with
      | tickCount c =>
        cases hcount
        exact ⟨s, rfl, hd⟩
      | unsupported m k => cases hcount
    · rintro ⟨t, ht, hcall⟩
      cases ht
      exact ⟨_, ⟨_, hcall, rfl⟩, rfl⟩

theorem configureAxis_refused_iff (id : String) (m : AxisMethod) (args : List Value) (e : TickCountError) :
    (∃ e', r.configureAxis id m args = .error e' ∧ e'.count? = some e) ↔
      ∃ a, get? r.axes id = some a ∧ a.configure m args = .error (.tickCount e) := by
  unfold configureAxis
  cases ha : get? r.axes id with
  | none =>
    refine iff_of_false ?_ (by simp)
    rintro ⟨e', h, -⟩
    cases h
  | some a =>
    have hfound : (∃ b, some a = some b ∧ b.configure m args = .error (.tickCount e)) ↔
        a.configure m args = .error (.tickCount e) := by simp
    rw [hfound]
    dsimp only
    cases hresult : a.configure m args with
    | ok b =>
      refine iff_of_false ?_ nofun
      rintro ⟨e', h, -⟩
      cases h
    | error e' =>
      cases e' with
      | format e' =>
        refine iff_of_false ?_ nofun
        rintro ⟨_, h, hcount⟩
        cases h
        cases hcount
      | tickCount c =>
        constructor
        · rintro ⟨_, h, hcount⟩
          cases h
          cases hcount
          rfl
        · intro h
          cases h
          exact ⟨_, rfl, rfl⟩

def Uncounted {α : Type} (x : Checked RegistryError α) : Prop :=
  ∀ e, x.run = .ok (.error e) → e.count? = none

theorem Uncounted.liftError {α : Type} {x : Except RegistryError α} (h : ∀ e, x = .error e → e.count? = none) :
    Uncounted (liftM x : Checked RegistryError α) :=
  fun e he => h e (Checked.liftError_run_refused_iff.1 he)

theorem Uncounted.bind_pure {α β : Type} {x : Checked RegistryError α} {g : α → β} (h : Uncounted x) :
    Uncounted (x >>= fun a => pure (g a)) :=
  fun e he => h e (Checked.bind_pure_run_refused_iff.1 he)

theorem format_uncounted (r : Registry) (v pattern : Value) : Uncounted (r.format v pattern) := by
  intro e h
  unfold format at h
  split at h
  · cases h
  · rcases Checked.liftError_bind_run_refused_iff.1 h with h | ⟨a, -, h⟩
    · unfold numberFormat at h
      split at h
      · cases h
      · split at h <;> cases h
        rfl
    · exact absurd h (Checked.lift_bind_pure_run_not_refused _ _)
  · cases h
    rfl
  · cases h
    rfl

theorem formatDate_uncounted (r : Registry) (zone : TimeZone) (utc : Bool) (v pattern : Value) :
    Uncounted (r.formatDate zone utc v pattern) := by
  intro e h
  unfold formatDate at h
  split at h
  · cases h
  · split at h
    · cases h
    · exact absurd h (Checked.lift_bind_pure_run_not_refused _ _)
  · cases h
    rfl

theorem addScale_uncounted (r : Registry) (kind : ScaleKind) (id : String) (args : List Value) :
    Uncounted (Helper.silent (r.addScale kind id args)) := by
  refine .bind_pure (.liftError fun e h => ?_)
  unfold addScale at h
  split at h <;> cases h
  rfl

theorem useScale_uncounted (r : Registry) (id : String) (v : Value) : Uncounted (r.useScale id v) := by
  intro e h
  unfold useScale at h
  split at h
  · cases h
    rfl
  · split at h
    · cases h
      rfl
    · exact absurd h (Checked.lift_bind_pure_run_not_refused _ _)

theorem addAxis_uncounted (r : Registry) (orient : Orient) (id scale : String) :
    Uncounted (Helper.silent (r.addAxis orient id scale)) := by
  refine .bind_pure (.liftError fun e h => ?_)
  unfold addAxis at h
  split at h <;> cases h
  rfl

theorem drawAxis_uncounted (r : Registry) (id : String) : Uncounted (r.drawAxis id) := by
  intro e h
  unfold drawAxis at h
  split at h
  · cases h
  · split at h
    · cases h
      rfl
    · exact absurd h (Checked.lift_bind_pure_run_not_refused _ _)

end Registry

/-! ## Calls of helpers -/

namespace HelperCall

variable {σ : Type}

/-- A call asks a scale or an axis for something that depends on a count, which is the first of these
arguments. -/
inductive Asks (c : HelperCall σ) (r : Registry) : List Value → Prop
  | scale {s : Scale} {m : ScaleMethod} (hc : c.helper = .getScale ∨ c.helper = .setupScale)
      (hm : ScaleMethod.ofName? (c.argument 1).toText = some m) (hs : get? r.scales c.target = some s)
      (h : s.Counts m) : Asks c r (c.args.drop 2)
  | axis {a : Axis} {m : AxisMethod} {asked : List Value} (hc : c.helper = .setupAxis)
      (hm : AxisMethod.ofName? (c.argument 1).toText = some m) (ha : get? r.axes c.target = some a)
      (h : m.counted? (c.args.drop 2) = some asked) : Asks c r asked

variable [HostServices σ] {c : HelperCall σ} {s : HelperState σ}

theorem refused_of_asks {asked : List Value} (h : c.Asks s.registry asked)
    (hover : Oversized (requestedCount asked)) :
    (c.on s).run = .ok (.error (.tickCount ⟨requestedCount asked⟩)) := by
  cases h with
  | scale hc hm hs hcounts =>
    have hcall := (Scale.refused_count_iff _ _ _ _).2 ⟨hcounts, hover, rfl⟩
    have hrefused := (Registry.callScale_refused_iff _ _ _ _).2 ⟨_, hs, hcall⟩
    rcases hc with hc | hc
    · rw [(Operates.getScale hc hm).call_eq, s.settle_refused_iff]
      exact hrefused
    · rw [(Operates.setupScale hc hm).call_eq, s.settle_refused_iff]
      exact hrefused.imp fun e' he' => ⟨Checked.bind_pure_run_refused_iff.2 he'.1, he'.2⟩
  | axis hc hm ha hasked =>
    have hrefused := (Registry.configureAxis_refused_iff _ _ _ _).2
      ⟨_, ha, (Axis.refused_count_iff _ _ _ _).2 ⟨_, hasked, hover, rfl⟩⟩
    rw [(Operates.configureAxis hc hm).call_eq, s.settle_refused_iff]
    exact hrefused.imp fun e' he' =>
      ⟨Checked.bind_pure_run_refused_iff.2 (Checked.liftError_run_refused_iff.2 he'.1), he'.2⟩

omit [HostServices σ] in
theorem Operates.asks {r : Registry} {x : Checked RegistryError (Registry × Value)} (h : c.Operates r x)
    {e' : RegistryError} {e : TickCountError} (he' : x.run = .ok (.error e')) (hcount : e'.count? = some e) :
    ∃ asked, c.Asks r asked ∧ Oversized (requestedCount asked) ∧ e = ⟨requestedCount asked⟩ := by
  have huncounted (hx : Registry.Uncounted x) : False := by cases (hx e' he').symm.trans hcount
  cases h with
  | getScale hc hm =>
    obtain ⟨t, ht, hcall⟩ := (Registry.callScale_refused_iff _ _ _ _).1 ⟨e', he', hcount⟩
    obtain ⟨hcounts, hover, rfl⟩ := (Scale.refused_count_iff _ _ _ _).1 hcall
    exact ⟨_, .scale (.inl hc) hm ht hcounts, hover, rfl⟩
  | setupScale hc hm =>
    have he' := Checked.bind_pure_run_refused_iff.1 he'
    obtain ⟨t, ht, hcall⟩ := (Registry.callScale_refused_iff _ _ _ _).1 ⟨e', he', hcount⟩
    obtain ⟨hcounts, hover, rfl⟩ := (Scale.refused_count_iff _ _ _ _).1 hcall
    exact ⟨_, .scale (.inr hc) hm ht hcounts, hover, rfl⟩
  | configureAxis hc hm =>
    have he' := Checked.liftError_run_refused_iff.1 (Checked.bind_pure_run_refused_iff.1 he')
    obtain ⟨a, ha, hconfigure⟩ := (Registry.configureAxis_refused_iff _ _ _ _).1 ⟨e', he', hcount⟩
    obtain ⟨asked, hasked, hover, rfl⟩ := (a.refused_count_iff _ _ _).1 hconfigure
    exact ⟨asked, .axis hc hm ha hasked, hover, rfl⟩
  | format => exact (huncounted (Registry.format_uncounted _ _ _)).elim
  | utcFormat | timeFormat => exact (huncounted (Registry.formatDate_uncounted _ _ _ _ _)).elim
  | addScale => exact (huncounted (Registry.addScale_uncounted _ _ _ _)).elim
  | useScale => exact (huncounted (Registry.useScale_uncounted _ _ _)).elim
  | addAxis => exact (huncounted (Registry.addAxis_uncounted _ _ _ _)).elim
  | drawAxis => exact (huncounted (Registry.drawAxis_uncounted _ _).bind_pure).elim

theorem asks_of_refused {e : TickCountError}
    (h : (c.on s).run = .ok (.error (.tickCount e))) :
    ∃ asked, c.Asks s.registry asked ∧ Oversized (requestedCount asked) ∧ e = ⟨requestedCount asked⟩ := by
  rcases c.call_cases s with ⟨x, hx⟩ | hanswer
  · rw [hx.call_eq, s.settle_refused_iff] at h
    obtain ⟨e', he', hcount⟩ := h
    exact hx.asks he' hcount
  · generalize c.on s = y at h hanswer
    cases hanswer <;> cases h

/-- A call is refused for a count exactly if it asks for what depends on one that is oversized. -/
theorem refused_iff_asks (c : HelperCall σ) (s : HelperState σ) (e : TickCountError) :
    (c.on s).run = .ok (.error (.tickCount e)) ↔
      ∃ asked, c.Asks s.registry asked ∧ Oversized (requestedCount asked) ∧ e = ⟨requestedCount asked⟩ := by
  constructor
  · exact asks_of_refused
  · rintro ⟨asked, hasks, hover, rfl⟩
    exact refused_of_asks hasks hover

end HelperCall

namespace Rendering

variable {σ : Type} [HostServices σ]

theorem callHelper_refused_iff (table : Table) (zone : TimeZone) (h : Helper) (args : List (Option Json))
    (defined : Entries Template) (s : HelperState σ) (e : HelperError) :
    ((callHelper h args).calls defined).run table zone s = .ok (.error ⟨.helper e, none⟩, s) ↔
      (h.call table s (args.map received) zone).run = .ok (.error e) := by
  show (CallTree.call h (args.map received) _).run table zone s = _ ↔ _
  rw [CallTree.run]
  cases (h.call table s (args.map received) zone).run with
  | error f => exact iff_of_false (fun h => by cases h) fun h => by cases h
  | ok r =>
    cases r with
    | error e' => exact ⟨fun h => by cases h; rfl, fun h => by cases h; rfl⟩
    | ok r =>
      obtain ⟨s', v⟩ := r
      exact iff_of_false (fun h => by cases v <;> cases h) fun h => by cases h

/-- **Oversized counts are refused.** Over all scales, methods and arguments, all axes, and all calls of
helpers in a rendering: what looks at a requested count refuses it exactly if it is infinite or greater than
the limit, with an error that tells the count, and the rendering fails with this error. All methods that need
a count look at it, but for the ticks of an empty sequential or diverging domain. -/
theorem refused_counts (e : TickCountError) :
    (∀ (s : Scale) (m : ScaleMethod) (args : List Value),
      (s.call m args).run = .ok (.error (.tickCount e)) ↔
        s.Counts m ∧ Oversized (requestedCount args) ∧ e = ⟨requestedCount args⟩) ∧
    (∀ (a : Axis) (m : AxisMethod) (args : List Value),
      a.configure m args = .error (.tickCount e) ↔ ∃ asked, m.counted? args = some asked ∧
        Oversized (requestedCount asked) ∧ e = ⟨requestedCount asked⟩) ∧
    ∀ (table : Table) (zone : TimeZone) (h : Helper) (args : List (Option Json))
      (defined : Entries Template) (s : HelperState σ),
      ((callHelper h args).calls defined).run table zone s =
          .ok (.error ⟨.helper (.tickCount e), none⟩, s) ↔
        ∃ asked, (HelperCall.mk h (args.map received) table s.host zone).Asks s.registry asked ∧
          Oversized (requestedCount asked) ∧ e = ⟨requestedCount asked⟩ := by
  refine ⟨fun s m args => s.refused_count_iff m args e, fun a m args => a.refused_count_iff m args e,
    fun table zone h args defined s => ?_⟩
  rw [callHelper_refused_iff]
  exact HelperCall.refused_iff_asks ⟨h, args.map received, table, s.host, zone⟩ s e

/-- A sequential scale with an empty domain gives the ticks for a billion of them. -/
theorem empty_domain_is_heedless :
    ∃ s, Scale.run .sequential [.array []] [] = .ok s ∧ s.kind.hasTicks = true ∧
      Oversized (requestedCount [.number 1000000000]) ∧
      (s.call .ticks [.number 1000000000]).run = .ok (.ok (s, numberArray [])) ∧
      ∀ e, (s.call .ticks [.number 1000000000]).run ≠ .ok (.error (.tickCount e)) :=
  ⟨_, rfl, rfl, .inr (by decide), rfl, fun _ => nofun⟩

end Rendering

end ChartTemplate
