import Mathlib
import ChartTemplate.Proofs.InPlace.Scale
import ChartTemplate.Proofs.Json.Numeral
import ChartTemplate.Proofs.Numeric.Order
import ChartTemplate.Proofs.Time.Weeks

/-!
# Where scales are cut off

A scale is made, and then stepped: applied to values and called with methods. All entries that it takes
from lists are there. `Scale.CutOff` lists the steps that have no result: numbers kept within a domain
that has no number, and weeks that start before the first Sunday that dates may have. A step is cut off if
it is in the list (`Scale.advance_eq_error_iff`), and a run at its first step that is.
-/

namespace ChartTemplate

variable {f : Fault}

/-! ## Bounds -/

theorem foldl_extent_le_iff (xs : List Float) (e : Float × Float) (hlow : e.1.isNaN = false)
    (hhigh : e.2.isNaN = false) :
    (xs.foldl (fun e x => (minNumber e.1 x, maxNumber e.2 x)) e).1 ≤
        (xs.foldl (fun e x => (minNumber e.1 x, maxNumber e.2 x)) e).2 ↔
      e.1 ≤ e.2 ∨ ∃ x ∈ xs, x.isNaN = false := by
  induction xs generalizing e with
  | nil => simp only [List.foldl_nil, List.not_mem_nil, false_and, exists_false, or_false]
  | cons x xs ih =>
    rw [List.foldl_cons]
    simp only [List.mem_cons, exists_eq_or_imp]
    by_cases hx : x.isNaN = true
    · -- neither bound moves
      rw [minNumber_of_isNaN hlow hx, maxNumber_of_isNaN hhigh hx, ih e hlow hhigh, hx]
      simp only [Bool.true_eq_false, false_or]
    · -- `x` lies between the bounds, so they stay in order
      have hx : x.isNaN = false := Bool.eq_false_iff.mpr hx
      obtain ⟨hmin, -, hle⟩ := minNumber_le hlow hx
      obtain ⟨hmax, -, hge⟩ := le_maxNumber hhigh hx
      have hordered : minNumber e.1 x ≤ maxNumber e.2 x := Float.le_trans hle hge
      rw [ih (minNumber e.1 x, maxNumber e.2 x) hmin hmax]
      exact iff_of_true (.inl hordered) (.inr (.inl hx))

theorem extent_le_iff (xs : List Float) :
    (extent xs).1 ≤ (extent xs).2 ↔ ∃ x ∈ xs, x.isNaN = false := by
  rw [extent, foldl_extent_le_iff xs _ (by decide) (by decide)]
  exact or_iff_right (by decide)

theorem clampBetween_eq_error_iff (lo hi x : Float) :
    clampBetween lo hi x = .error f ↔ ¬ lo ≤ hi ∧ f = .unorderedBounds := by
  unfold clampBetween
  split
  · simp [*, pure, Except.pure]
  · simp [*, throw, throwThe, MonadExceptOf.throw, eq_comm]

namespace Continuous

/-- The scale is to keep values within a domain that has no number. -/
structure Unbounded (s : Continuous) : Prop where
  clamp : s.clamp = true
  size : 2 ≤ s.size
  domain : ∀ x ∈ s.domain.take s.size, x.isNaN = true

variable {s : Continuous}

theorem clamped_eq_error_iff (hsize : 2 ≤ s.size) (x : Float) :
    s.clamped x = .error f ↔ s.Unbounded ∧ f = .unorderedBounds := by
  unfold clamped
  split
  · rename_i hclamp
    rw [clampBetween_eq_error_iff, extent_le_iff]
    refine and_congr_left' ⟨fun h => ⟨hclamp, hsize, ?_⟩, fun h => ?_⟩
    · intro x hx
      by_contra hnumber
      exact h ⟨x, hx, Bool.eq_false_iff.mpr hnumber⟩
    · rintro ⟨x, hx, hnumber⟩
      rw [h.domain x hx] at hnumber
      cases hnumber
  · rename_i hclamp
    constructor
    · intro h
      cases h
    · rintro ⟨h, -⟩
      exact absurd h.clamp hclamp

theorem guarded_eq_error_iff {α : Type} {x : Float} {a : α} {y : Except Fault α}
    (hy : 2 ≤ s.size → (y = .error f ↔ s.Unbounded ∧ f = .unorderedBounds)) :
    (if x.isNaN || s.size < 2 then pure a else y) = .error f ↔
      s.Unbounded ∧ x.isNaN = false ∧ f = .unorderedBounds := by
  split
  · rename_i hstop
    constructor
    · intro h
      cases h
    · rintro ⟨h, hx, -⟩
      have hsize := h.size
      rw [hx, Bool.false_or, decide_eq_true_iff] at hstop
      omega
  · rename_i hgo
    rw [Bool.or_eq_true, decide_eq_true_iff, not_or, Bool.not_eq_true, not_lt] at hgo
    rw [hy hgo.2]
    exact and_congr_right' ⟨fun h => ⟨hgo.1, h⟩, And.right⟩

theorem apply_eq_error_iff (v : Value) :
    s.apply v = .error f ↔ s.Unbounded ∧ (s.input v).isNaN = false ∧ f = .unorderedBounds :=
  guarded_eq_error_iff fun hsize => (bind_pure_eq_error_iff _ _).trans (clamped_eq_error_iff hsize _)

theorem invert_eq_error_iff (y : Float) :
    s.invert y = .error f ↔ s.Unbounded ∧ y.isNaN = false ∧ f = .unorderedBounds :=
  guarded_eq_error_iff fun hsize => clamped_eq_error_iff hsize _

end Continuous

/-! ## Steps -/

inductive ScaleStep where
  | apply (v : Value)
  | call (m : ScaleMethod) (args : List Value)

/-- The steps that have no result. -/
inductive Scale.CutOff : Scale → ScaleStep → Fault → Prop where
  /-- A number is to be kept within a domain that has none. -/
  | apply {s : Continuous} {v : Value} (hdomain : s.Unbounded) (hv : (s.input v).isNaN = false) :
      CutOff (.continuous s) (.apply v) .unorderedBounds
  | invert {s : Continuous} {v : Value} {args : List Value} (hdomain : s.Unbounded)
      (hv : v.toNumber.isNaN = false) :
      CutOff (.continuous s) (.call .invert (v :: args)) .unorderedBounds
  /-- An end of a domain is moved to the start of a week that has no date. -/
  | nice {s : Continuous} {args : List Value} {count start stop : Float} (htime : s.transform = .time)
      (hcount : countArgument args = .ok count) (hends : endsOf? s.domain = some (start, stop))
      (hlength : 2 ≤ s.domain.length)
      (hweek : (TimeInterval.forSpan (minNumber start stop) (maxNumber start stop) count).unit = .week)
      (hend : BeforeSundays start ∨ BeforeSundays stop) :
      CutOff (.continuous s) (.call .nice args) .dateRange
  /-- Ticks start in a week that has no date. -/
  | ticks {s : Continuous} {args : List Value} {count start stop lo hi : Float}
      (htime : s.transform = .time) (hcount : countArgument args = .ok count)
      (hends : endsOf? s.domain = some (start, stop))
      (horder : (lo, hi) = if stop < start then (stop, start) else (start, stop))
      (hweek : (TimeInterval.forSpan lo hi count).unit = .week) (hlo : BeforeSundays lo) :
      CutOff (.continuous s) (.call .ticks args) .dateRange

namespace Continuous

variable {s : Continuous}

theorem nice_ne_error (h : s.transform ≠ .time) (count : Float) : s.nice count ≠ .error f := by
  intro hnice
  -- ends are moved by arithmetic that cannot fail
  have hpure (g : Float → Float) (x : Float) (f : Fault) :
      (pure (g x) : Except Fault Float) = .error f ↔ False ∧ f = .dateRange :=
    iff_of_false (fun h => by cases h) And.left
  unfold nice at hnice
  split at hnice
  · rw [bind_pure_eq_error_iff, niceWith_eq_error_iff (hpure _) (hpure _)] at hnice
    obtain ⟨-, ⟨ends, -, hend⟩, -⟩ := hnice
    exact hend.elim id id
  · exact h ‹_›
  · cases hnice

theorem nice_time_eq_error_iff (htime : s.transform = .time) {start stop : Float}
    (hends : endsOf? s.domain = some (start, stop)) (count : Float) :
    s.nice count = .error f ↔ 2 ≤ s.domain.length ∧
      (TimeInterval.forSpan (minNumber start stop) (maxNumber start stop) count).unit = .week ∧
      (BeforeSundays start ∨ BeforeSundays stop) ∧ f = .dateRange := by
  have hstep := TimeInterval.forSpan_step_ne_zero (minNumber start stop) (maxNumber start stop) count
  unfold nice
  rw [htime, hends]
  dsimp only
  generalize TimeInterval.forSpan (minNumber start stop) (maxNumber start stop) count = i at hstep ⊢
  rw [bind_pure_eq_error_iff, niceWith_eq_error_iff
    (fun x _ => (i.floor_eq_error_iff hstep x).trans and_assoc.symm)
    (fun x _ => (i.ceil_eq_error_iff hstep x).trans and_assoc.symm), hends]
  simp only [Option.mem_def, Option.some.injEq, exists_eq_left', ← and_or_left, and_assoc]

theorem nice_eq_error_iff (args : List Value) :
    (∃ count, countArgument args = .ok count ∧ s.nice count = .error f) ↔
      Scale.CutOff (.continuous s) (.call .nice args) f := by
  constructor
  · rintro ⟨count, hcount, h⟩
    have htime : s.transform = .time := by
      by_contra hother
      exact nice_ne_error hother count h
    cases hends : endsOf? s.domain with
    | none =>
      unfold nice at h
      rw [htime, hends] at h
      cases h
    | some ends =>
      obtain ⟨hlength, hweek, hend, rfl⟩ := (nice_time_eq_error_iff htime hends count).mp h
      exact .nice htime hcount hends hlength hweek hend
  · intro h
    cases h with
    | nice htime hcount hends hlength hweek hend =>
      exact ⟨_, hcount, (nice_time_eq_error_iff htime hends _).mpr ⟨hlength, hweek, hend, rfl⟩⟩

/-- Ticks start in a week that has no date. -/
inductive NoFirstTick (s : Continuous) (count : Float) : Prop where
  | intro {start stop lo hi : Float} (htime : s.transform = .time)
      (hends : endsOf? s.domain = some (start, stop))
      (horder : (lo, hi) = if stop < start then (stop, start) else (start, stop))
      (hweek : (TimeInterval.forSpan lo hi count).unit = .week) (hlo : BeforeSundays lo)

theorem ticks_eq_error_iff (count : Float) :
    s.ticks count = .error f ↔ s.NoFirstTick count ∧ f = .dateRange := by
  unfold ticks
  cases hends : endsOf? s.domain with
  | none =>
    refine iff_of_false (fun h => by cases h) ?_
    rintro ⟨⟨-, hends', -, -, -⟩, -⟩
    rw [hends] at hends'
    cases hends'
  | some ends =>
    cases htime : s.transform with
    | time =>
      dsimp only
      rw [timeTicks_eq_error_iff]
      constructor
      · rintro ⟨lo, hi, horder, hweek, hlo, rfl⟩
        exact ⟨.intro htime hends horder hweek hlo, rfl⟩
      · rintro ⟨⟨-, hends', horder, hweek, hlo⟩, rfl⟩
        rw [hends] at hends'
        cases hends'
        exact ⟨_, _, horder, hweek, hlo, rfl⟩
    | _ =>
      refine iff_of_false (fun h => by cases h) ?_
      rintro ⟨⟨htime', -, -, -, -⟩, -⟩
      rw [htime] at htime'
      cases htime'

theorem ticks_cutOff_iff (args : List Value) :
    (∃ count, countArgument args = .ok count ∧ s.ticks count = .error f) ↔
      Scale.CutOff (.continuous s) (.call .ticks args) f := by
  simp only [ticks_eq_error_iff]
  constructor
  · rintro ⟨count, hcount, ⟨htime, hends, horder, hweek, hlo⟩, rfl⟩
    exact .ticks htime hcount hends horder hweek hlo
  · intro h
    cases h with
    | ticks htime hcount hends horder hweek hlo =>
      exact ⟨_, hcount, .intro htime hends horder hweek hlo, rfl⟩

theorem exists_call (s : Continuous) {m : ScaleMethod} (hnice : m ≠ .nice) (hticks : m ≠ .ticks)
    (hinvert : m ≠ .invert) (args : List Value) : ∃ r, (s.call m args).run = .ok r := by
  obtain ⟨transform, domain, range, clamp, rounds, unknown⟩ := s
  cases m <;> cases args <;> cases transform <;> first | exact ⟨_, rfl⟩ | contradiction

theorem call_nice_eq_error_iff (args : List Value) :
    (s.call .nice args).run = .error f ↔ Scale.CutOff (.continuous s) (.call .nice args) f := by
  rw [call_nice, Checked.liftError_bind_run_eq_error_iff, ← nice_eq_error_iff]
  simp only [Checked.lift_bind_pure_run_eq_error_iff]

theorem call_ticks_eq_error_iff (args : List Value) :
    (s.call .ticks args).run = .error f ↔ Scale.CutOff (.continuous s) (.call .ticks args) f := by
  rw [call_ticks, Checked.liftError_bind_run_eq_error_iff, ← ticks_cutOff_iff]
  simp only [Checked.lift_bind_pure_run_eq_error_iff]

theorem call_invert_eq_error_iff (args : List Value) :
    (s.call .invert args).run = .error f ↔ Scale.CutOff (.continuous s) (.call .invert args) f := by
  match args with
  | [] =>
    constructor
    · intro h
      cases h
    · intro h
      cases h
  | v :: rest =>
    have hcall : s.call .invert (v :: rest) = (do
      let x ← s.invert v.toNumber
      return (s, s.domainValue x)) := rfl
    rw [hcall, Checked.lift_bind_pure_run_eq_error_iff, invert_eq_error_iff]
    constructor
    · rintro ⟨hdomain, hv, rfl⟩
      exact .invert hdomain hv
    · intro h
      cases h with
      | invert hdomain hv => exact ⟨hdomain, hv, rfl⟩

theorem call_eq_error_iff (s : Continuous) (m : ScaleMethod) (args : List Value) :
    (s.call m args).run = .error f ↔ Scale.CutOff (.continuous s) (.call m args) f := by
  by_cases hnice : m = .nice
  · subst hnice
    exact call_nice_eq_error_iff args
  by_cases hticks : m = .ticks
  · subst hticks
    exact call_ticks_eq_error_iff args
  by_cases hinvert : m = .invert
  · subst hinvert
    exact call_invert_eq_error_iff args
  · obtain ⟨r, hr⟩ := s.exists_call hnice hticks hinvert args
    rw [hr]
    constructor
    · intro h
      cases h
    · intro h
      cases h <;> contradiction

end Continuous

namespace Scale

theorem call_lift_eq_error_iff {α : Type} {s : Scale} (hs : ∀ c, s ≠ continuous c) (m : ScaleMethod)
    (args : List Value) (x : Except ScaleError α) (g : α → Scale × Value) :
    ((liftM x : Checked ScaleError α) >>= fun a => pure (g a)).run = .error f ↔
      s.CutOff (.call m args) f := by
  rw [Checked.bind_pure_run_eq_error_iff]
  refine iff_of_false (Checked.liftError_run_ne_error x) ?_
  intro h
  cases h <;> exact hs _ rfl

theorem call_eq_error_iff (s : Scale) (m : ScaleMethod) (args : List Value) :
    (s.call m args).run = .error f ↔ s.CutOff (.call m args) f := by
  unfold call
  cases s with
  | continuous s =>
    exact (Checked.bind_pure_run_eq_error_iff _ _).trans (s.call_eq_error_iff m args)
  | _ => exact call_lift_eq_error_iff (fun c h => by cases h) m args _ _

theorem apply_eq_error_iff (s : Scale) (v : Value) : s.apply v = .error f ↔ s.CutOff (.apply v) f := by
  unfold apply
  cases s with
  | continuous s =>
    dsimp only
    rw [map_eq_error_iff, Continuous.apply_eq_error_iff]
    constructor
    · rintro ⟨hdomain, hv, rfl⟩
      exact .apply hdomain hv
    · intro h
      cases h with
      | apply hdomain hv => exact ⟨hdomain, hv, rfl⟩
  | _ =>
    constructor
    · intro h
      cases h
    · intro h
      cases h

end Scale

/-! ## Refusals -/

/-- A decimal written plainly, with its digits cut at the point. -/
def Decimal.plainAt (d : Decimal) : Except Abort (List Char) := do
  let ds := digitChars d.digits
  let point := d.exponent + 1
  if (ds.length : Int) ≤ point ∧ point ≤ 21 then return ds ++ zeros (point - ds.length).toNat
  else if 0 < point ∧ point ≤ 21 then
    return (← partAt ds 0 point.toNat) ++ '.' :: (← partAt ds point.toNat ds.length)
  else if -6 < point ∧ point ≤ 0 then return '0' :: '.' :: zeros (-point).toNat ++ ds
  else
    let first ← partAt ds 0 1
    let rest ← partAt ds 1 ds.length
    let fraction := if rest.isEmpty then [] else '.' :: rest
    return first ++ fraction ++ 'e' :: (if d.exponent < 0 then '-' else '+') :: natChars d.exponent.natAbs

def numberTextAt (x : Float) : Except Abort String := do
  if x.isNaN || x.isInf || x == 0 then return numberText x
  let body ← (Decimal.shortest .up x).plainAt
  return String.ofList (if x < 0 then '-' :: body else body)

def ScaleError.messageAt : ScaleError → Except Abort String
  | tickCount e => do return "Invalid tick count " ++ (← numberTextAt e.count)
  | e => return e.message

theorem Decimal.plainAt_eq {d : Decimal} (h : d.digits ≠ []) : d.plainAt = .ok d.plainChars := by
  unfold plainAt plainChars
  have hlength : 1 ≤ (digitChars d.digits).length := by
    unfold digitChars
    rw [List.length_map]
    exact List.length_pos_iff.mpr h
  generalize digitChars d.digits = ds at hlength
  dsimp only
  split
  · rfl
  · split
    · rw [partAt_zero (by omega), partAt_eq (by omega) (le_refl _), List.take_length]
      rfl
    · split
      · rfl
      · rw [partAt_zero hlength, partAt_eq hlength (le_refl _), List.take_length]
        match ds, hlength with
        | [c], _ => rfl
        | c :: c' :: cs, _ => rfl

theorem numberTextAt_eq (x : Float) : numberTextAt x = .ok (numberText x) := by
  unfold numberTextAt
  split
  · rfl
  · rename_i hfinite
    simp only [Bool.or_eq_true, not_or, Bool.not_eq_true] at hfinite
    obtain ⟨⟨hnan, hinf⟩, hzero⟩ := hfinite
    rw [Decimal.plainAt_eq (Json.shortest_digits .up x).1, numberText, numberChars, hnan, hinf, hzero]
    rfl

theorem ScaleError.messageAt_eq (e : ScaleError) : e.messageAt = .ok e.message := by
  cases e with
  | tickCount e =>
    show (numberTextAt e.count >>= fun text => _) = _
    rw [numberTextAt_eq]
    rfl
  | unsupported m kind => rfl

/-! ## Runs -/

namespace Scale

/-- The scale after a step. A refused step leaves it as it was. -/
def advance (s : Scale) : ScaleStep → Except Fault Scale
  | .apply v => (s.apply v).map Prod.fst
  | .call m args => (s.call m args).run.map fun
    | .ok (t, _) => t
    | .error _ => s

def run (kind : ScaleKind) (args : List Value) (steps : List ScaleStep) : Except Fault Scale :=
  steps.foldlM advance (make kind args)

/-- A step setting by setting, with entries taken by their places. -/
def stepWork : ScaleStep → InPlace Scale ScaleError Value
  | .apply v => applyWork v
  | .call m args => work m args

/-- The scale after a step that is taken so; a refusal is put into words. -/
def advanceAt (s : Scale) (step : ScaleStep) : Except Abort Scale := do
  match ← (stepWork step).on s with
  | (.ok _, t) => return t
  | (.error e, t) =>
    let _ ← e.messageAt
    return t

/-- Makes a scale and takes steps on it, with entries taken by their places. -/
def runAt (kind : ScaleKind) (args : List Value) (steps : List ScaleStep) : Except Abort Scale := do
  steps.foldlM advanceAt (← makeAt kind args)

/-- **A step** takes entries of lists only where they are. -/
theorem advanceAt_eq (s : Scale) (step : ScaleStep) :
    s.advanceAt step = Abort.ofFault (s.advance step) := by
  unfold advanceAt
  cases step with
  | apply v =>
    rw [stepWork, (applyWork_does v).on_eq, advance]
    cases s.apply v <;> rfl
  | call m args =>
    rw [stepWork, (work_does m args).on_eq, advance, Checked.onto]
    match (s.call m args).run with
    | .error f => rfl
    | .ok (.error e) =>
      show (e.messageAt >>= fun _ => _) = _
      rw [ScaleError.messageAt_eq]
      rfl
    | .ok (.ok (t, v)) => rfl

/-- **A step** has a result unless the scale is cut off there. -/
theorem advance_eq_error_iff (s : Scale) (step : ScaleStep) :
    s.advance step = .error f ↔ s.CutOff step f := by
  cases step with
  | apply v => exact (map_eq_error_iff _ _).trans (s.apply_eq_error_iff v)
  | call m args => exact (map_eq_error_iff _ _).trans (s.call_eq_error_iff m args)

theorem runAt_eq (kind : ScaleKind) (args : List Value) (steps : List ScaleStep) :
    runAt kind args steps = Abort.ofFault (run kind args steps) := by
  unfold runAt run
  rw [makeAt_eq, ok_bind]
  generalize make kind args = s
  induction steps generalizing s with
  | nil => rfl
  | cons step steps ih =>
    rw [List.foldlM_cons, List.foldlM_cons, advanceAt_eq, Abort.ofFault_bind]
    congr 1
    funext t
    exact ih t

/-- **Runs on scales.** Whatever a scale was made of and whatever steps were taken, entries of lists are
taken only where they are, and what cuts a run off is the first step without a result: a number that is
to be kept within a domain that has none, or a week that would start before the first Sunday of dates. -/
theorem run_cut_off_iff (kind : ScaleKind) (args : List Value) (steps : List ScaleStep) :
    runAt kind args steps = Abort.ofFault (run kind args steps) ∧
      ∀ f, run kind args steps = .error f ↔ ∃ done step rest s, steps = done ++ step :: rest ∧
        run kind args done = .ok s ∧ s.CutOff step f :=
  ⟨runAt_eq kind args steps, fun f => by
    unfold run
    simp only [foldlM_eq_error_iff, advance_eq_error_iff]⟩

/-- Texts have no number to keep another one within, and the first of these instants comes before the
first Sunday. -/
theorem run_cut_off :
    run .linear [.array [.text "a", .text "b"], .array [.number 0, .number 1]]
        [.call .clamp [.bool true], .apply (.number 5)] = .error .unorderedBounds ∧
      run .linear [.array [.text "a", .text "b"], .array [.number 0, .number 1]]
        [.call .clamp [.bool true], .call .invert [.number 0.5]] = .error .unorderedBounds ∧
      run .time [.array [.number (-8334601228800000), .number (-8334595180800000)],
        .array [.number 0, .number 1]] [.call .nice [.number 10]] = .error .dateRange :=
  ⟨by rfl, by rfl, by rfl⟩

end Scale

end ChartTemplate
