import Mathlib
import ChartTemplate.Proofs.InPlace.Continuous
import ChartTemplate.Scale.Basic

/-!
# Scales in place

The methods of all other kinds of scales setting by setting, with entries taken by their places, and
from them `Scale.work` and `Scale.applyWork` for all kinds. As for continuous scales, a refused method
has written nothing, and all entries are there (`work_does`, `applyWork_does`).
-/

namespace ChartTemplate

theorem clampBetween_unit (x : Float) : clampBetween 0 1 x = .ok (clampUnit x) := by
  unfold clampBetween
  rw [if_pos (by decide)]
  rfl

/-! ## Sequential and diverging scales -/

namespace Sequential

/-- The position of a number, kept within the unit interval if the scale says so. -/
def positionAt (s : Sequential) (x : Float) : Except Abort Float :=
  if s.clamp then Abort.ofFault (clampBetween 0 1 (s.unclamped x)) else pure (s.unclamped x)

/-- The value of the range for a value of the domain. -/
def applyAt (s : Sequential) (v : Value) : Except Abort Value := do
  let x := v.toNumber
  if x.isNaN then return s.unknown
  let t ← s.positionAt x
  if t.isNaN then return s.unknown
  Value.piecewiseAt s.range t

/-- Calls a method, setting by setting. -/
def work (m : ScaleMethod) (args : List Value) : InPlace Sequential ScaleError Value := do
  match m, args.head? with
  | .domain, some v => modify fun s => { s with domain := numbersOf v }
  | .domain, none => return numberArray (← get).domain
  | .range, some v => modify fun s => { s with range := v.items?.getD [] }
  | .range, none => return .array (← get).range
  | .clamp, some v => modify fun s => { s with clamp := v.isTruthy }
  | .clamp, none => return .bool (← get).clamp
  | .unknown, some v => modify fun s => { s with unknown := v }
  | .unknown, none => return (← get).unknown
  | .nice, _ =>
    let count ← countArgument args
    let domain ← niceLinearAt (← get).domain count
    modify fun s => { s with domain }
  | .ticks, _ =>
    match endsOf? (← get).domain with
    | none => return numberArray []
    | some (a, b) =>
      let count ← countArgument args
      return numberArray (ticks a b count)
  | _, _ => throw (.unsupported m (← get).kind)
  return .undefined

theorem positionAt_eq (s : Sequential) (x : Float) : s.positionAt x = .ok (s.position x) := by
  unfold positionAt position
  rw [clampBetween_unit]
  split <;> rfl

theorem applyAt_eq (s : Sequential) (v : Value) : s.applyAt v = .ok (s.apply v) := by
  unfold applyAt apply
  dsimp only
  rw [positionAt_eq, ok_bind]
  by_cases hx : v.toNumber.isNaN
  · rw [if_pos hx, hx]
    rfl
  · rw [if_neg hx, Bool.eq_false_iff.mpr hx, Bool.false_or]
    split
    · rfl
    · exact Value.piecewiseAt_eq _ _

theorem call_nice (s : Sequential) (args : List Value) : s.call .nice args = (do
    let count ← countArgument args
    return ({ s with domain := niceLinear s.domain count }, .undefined)) := by
  cases args <;> rfl

theorem call_ticks (s : Sequential) (args : List Value) : s.call .ticks args = (match endsOf? s.domain with
    | none => return (s, numberArray [])
    | some (a, b) => do
      let count ← countArgument args
      return (s, numberArray (ticks a b count))) := by
  cases args <;> rfl

theorem nice_does (args : List Value) : (work .nice args).Does fun s => liftM (s.call .nice args) := by
  refine .of_except fun s => ?_
  have hwork : work .nice args = (do
      let count ← countArgument args
      let domain ← niceLinearAt (← get).domain count
      modify fun s => { s with domain }
      return .undefined) := by cases args <;> rfl
  rw [hwork, call_nice, InPlace.on_liftError_bind]
  cases countArgument args with
  | error e => rfl
  | ok count =>
    dsimp only
    rw [InPlace.on_get_bind, InPlace.on_lift_bind, niceLinearAt_eq]
    rfl

theorem ticks_does (args : List Value) :
    (work .ticks args).Does fun s => liftM (s.call .ticks args) := by
  refine .of_except fun s => ?_
  have hwork : work .ticks args = (do
      match endsOf? (← get).domain with
      | none => return numberArray []
      | some (a, b) =>
        let count ← countArgument args
        return numberArray (ticks a b count)) := by cases args <;> rfl
  rw [hwork, call_ticks, InPlace.on_get_bind]
  cases endsOf? s.domain with
  | none => rfl
  | some ends =>
    dsimp only
    rw [InPlace.on_liftError_bind]
    cases countArgument args <;> rfl

/-- **A method** writes nothing before it is refused. -/
theorem work_does (m : ScaleMethod) (args : List Value) :
    (work m args).Does fun s => liftM (s.call m args) := by
  cases m with
  | nice => exact nice_does args
  | ticks => exact ticks_does args
  | _ =>
    intro s
    cases args <;> rfl

end Sequential

/-! ## Quantize and threshold scales -/

namespace Quantize

/-- The ends of the segment of a value of the range. -/
def invertExtentAt (s : Quantize) (y : Value) : Except Abort Value := do
  match s.range.findIdx? fun r => r.strictEq y with
  | none => return numberArray [notANumber, notANumber]
  | some i =>
    let n := s.thresholds.length
    if i = 0 then return numberArray [s.low, s.thresholds.headD s.high]
    else if n ≤ i then return numberArray [s.thresholds.getLastD s.low, s.high]
    else return numberArray [← entryAt s.thresholds (i - 1), ← entryAt s.thresholds i]

/-- Sets the two numbers of an array as the ends of the domain; any other array is ignored. -/
def setDomainWork (v : Value) : InPlace Quantize ScaleError PUnit :=
  match numbersOf v with
  | [a, b] => do
    modify fun s => { s with low := a }
    modify fun s => { s with high := b }
  | _ => pure ⟨⟩

/-- Calls a method, setting by setting. The thresholds come last. -/
def work (m : ScaleMethod) (args : List Value) : InPlace Quantize ScaleError Value := do
  match m, args.head? with
  | .domain, some v =>
    setDomainWork v
    modify rescale
  | .domain, none => return numberArray [(← get).low, (← get).high]
  | .range, some v =>
    modify fun s => { s with range := v.items?.getD [] }
    modify rescale
  | .range, none => return .array (← get).range
  | .unknown, some v => modify fun s => { s with unknown := v }
  | .unknown, none => return (← get).unknown
  | .thresholds, _ => return numberArray (← get).thresholds
  | .invertExtent, some v =>
    return ← (← get).invertExtentAt v
  | .nice, _ =>
    let count ← countArgument args
    let domain ← niceLinearAt [(← get).low, (← get).high] count
    let low ← entryAt domain 0
    modify fun s => { s with low }
    let high ← entryAt domain 1
    modify fun s => { s with high }
    modify rescale
  | .ticks, _ =>
    let count ← countArgument args
    return numberArray (ticks (← get).low (← get).high count)
  | _, _ => throw (.unsupported m .quantize)
  return .undefined

theorem invertExtentAt_eq (s : Quantize) (y : Value) :
    s.invertExtentAt y = .ok (s.invertExtent y) := by
  unfold invertExtentAt invertExtent
  cases s.range.findIdx? fun r => r.strictEq y with
  | none => rfl
  | some i =>
    dsimp only
    by_cases hfirst : i = 0
    · rw [if_pos hfirst, if_pos hfirst]
      rfl
    · by_cases hlast : s.thresholds.length ≤ i
      · rw [if_neg hfirst, if_neg hfirst, if_pos hlast, if_pos hlast]
        rfl
      · rw [if_neg hfirst, if_neg hfirst, if_neg hlast, if_neg hlast,
          entryAt_eq_getD (by omega) notANumber, entryAt_eq_getD (by omega) notANumber]
        rfl

theorem on_setDomainWork (v : Value) (s : Quantize) :
    (setDomainWork v).on s = .ok (.ok ⟨⟩, s.setDomain v) := by
  unfold setDomainWork setDomain
  generalize numbersOf v = xs
  rcases xs with _ | ⟨a, _ | ⟨b, _ | ⟨c, rest⟩⟩⟩ <;> rfl

theorem domain_does (args : List Value) :
    (work .domain args).Does fun s => liftM (s.call .domain args) := by
  refine .of_except fun s => ?_
  match args with
  | [] => rfl
  | v :: rest =>
    have hcall : s.call .domain (v :: rest) = .ok ((s.setDomain v).rescale, .undefined) := rfl
    have hwork : work .domain (v :: rest) = (do
      setDomainWork v
      modify rescale
      return .undefined) := rfl
    rw [hwork, hcall, InPlace.on_bind, on_setDomainWork]
    rfl

theorem exists_niceLinear_pair (low high count : Float) :
    ∃ a b, niceLinear [low, high] count = [a, b] := by
  unfold niceLinear
  dsimp only
  split
  · unfold setEnds
    split
    · exact ⟨_, _, rfl⟩
    · exact ⟨_, _, rfl⟩
  · exact ⟨_, _, rfl⟩

theorem call_nice (s : Quantize) (args : List Value) : s.call .nice args = (do
    let count ← countArgument args
    return (s.nice count, .undefined)) := by
  cases args <;> rfl

theorem call_ticks (s : Quantize) (args : List Value) : s.call .ticks args = (do
    let count ← countArgument args
    return (s, numberArray (ticks s.low s.high count))) := by
  cases args <;> rfl

theorem nice_does (args : List Value) : (work .nice args).Does fun s => liftM (s.call .nice args) := by
  refine .of_except fun s => ?_
  have hwork : work .nice args = (do
      let count ← countArgument args
      let domain ← niceLinearAt [(← get).low, (← get).high] count
      let low ← entryAt domain 0
      modify fun s => { s with low }
      let high ← entryAt domain 1
      modify fun s => { s with high }
      modify rescale
      return .undefined) := by cases args <;> rfl
  rw [hwork, call_nice, InPlace.on_liftError_bind]
  cases countArgument args with
  | error e => rfl
  | ok count =>
    obtain ⟨a, b, hnice⟩ := exists_niceLinear_pair s.low s.high count
    dsimp only
    rw [InPlace.on_get_bind, InPlace.on_get_bind, InPlace.on_lift_bind, niceLinearAt_eq, ok_bind,
      hnice]
    show _ = Except.ok (Except.ok Value.undefined, s.nice count)
    rw [nice, hnice]
    rfl

theorem ticks_does (args : List Value) :
    (work .ticks args).Does fun s => liftM (s.call .ticks args) := by
  refine .of_except fun s => ?_
  have hwork : work .ticks args = (do
      let count ← countArgument args
      return numberArray (ticks (← get).low (← get).high count)) := by cases args <;> rfl
  rw [hwork, call_ticks, InPlace.on_liftError_bind]
  cases countArgument args <;> rfl

theorem invertExtent_does (args : List Value) :
    (work .invertExtent args).Does fun s => liftM (s.call .invertExtent args) := by
  refine .of_except fun s => ?_
  match args with
  | [] => rfl
  | v :: rest =>
    have hwork : work .invertExtent (v :: rest) = (do return ← (← get).invertExtentAt v) := rfl
    have hcall : s.call .invertExtent (v :: rest) = .ok (s, s.invertExtent v) := rfl
    rw [hwork, hcall, InPlace.on_get_bind, invertExtentAt_eq]
    rfl

/-- **A method** writes nothing before it is refused. -/
theorem work_does (m : ScaleMethod) (args : List Value) :
    (work m args).Does fun s => liftM (s.call m args) := by
  cases m with
  | domain => exact domain_does args
  | nice => exact nice_does args
  | ticks => exact ticks_does args
  | invertExtent => exact invertExtent_does args
  | _ =>
    intro s
    cases args <;> rfl

end Quantize

namespace Threshold

/-- The value of the range for a value of the domain. -/
def applyAt (s : Threshold) (v : Value) : Except Abort Value := do
  let x := v.toNumber
  if x.isNaN then return s.unknown
  let thresholds ← partAt s.domain 0 (min s.domain.length (s.range.length - 1))
  return (stepValue? thresholds s.range x).getD s.unknown

/-- Calls a method, setting by setting. -/
def work (m : ScaleMethod) (args : List Value) : InPlace Threshold ScaleError Value := do
  match m, args.head? with
  | .domain, some v => modify fun s => { s with domain := numbersOf v }
  | .domain, none => return numberArray (← get).domain
  | .range, some v => modify fun s => { s with range := v.items?.getD [] }
  | .range, none => return .array (← get).range
  | .unknown, some v => modify fun s => { s with unknown := v }
  | .unknown, none => return (← get).unknown
  | .invertExtent, some v => return (← get).invertExtent v
  | _, _ => throw (.unsupported m .threshold)
  return .undefined

theorem applyAt_eq (s : Threshold) (v : Value) : s.applyAt v = .ok (s.apply v) := by
  unfold applyAt apply
  dsimp only
  rw [partAt_zero (Nat.min_le_left _ _), ok_bind, Nat.min_comm, ← List.take_eq_take_min]
  split <;> rfl

/-- **A method** writes nothing before it is refused. -/
theorem work_does (m : ScaleMethod) (args : List Value) :
    (work m args).Does fun s => liftM (s.call m args) := by
  intro s
  cases m <;> cases args <;> rfl

end Threshold

/-! ## Band and point scales -/

namespace Band

/-- Sets the two numbers of an array as the ends of the range; any other array is ignored. -/
def setRangeWork (v : Value) : InPlace Band ScaleError PUnit :=
  match numbersOf v with
  | [a, b] => modify fun s => { s with settings := { s.settings with start := a, stop := b } }
  | _ => pure ⟨⟩

/-- Computes the layout anew. -/
def rescale (s : Band) : Band :=
  { s with layout := s.settings.layout }

/-- Calls a method, setting by setting. The layout comes last. -/
def work (m : ScaleMethod) (args : List Value) : InPlace Band ScaleError Value := do
  let change (f : BandSettings → BandSettings) : InPlace Band ScaleError PUnit :=
    modify fun s => { s with settings := f s.settings }
  let refuse : InPlace Band ScaleError PUnit := do throw (.unsupported m (← get).kind)
  let point := (← get).settings.point
  match m, args.head? with
  | .domain, some v => change fun s => { s with domain := Value.distinct (v.items?.getD []) }
  | .domain, none => return .array (← get).settings.domain
  | .range, some v => setRangeWork v
  | .range, none => return numberArray [(← get).settings.start, (← get).settings.stop]
  | .rangeRound, some v =>
    setRangeWork v
    change fun s => { s with rounds := true }
  | .round, some v => change fun s => { s with rounds := v.isTruthy }
  | .round, none => return .bool (← get).settings.rounds
  | .align, some v =>
    let align ← Abort.ofFault (clampBetween 0 1 v.toNumber)
    change fun s => { s with align }
  | .align, none => return .number (← get).settings.align
  | .padding, some v =>
    let p := v.toNumber
    if !point then change fun s => { s with paddingInner := minNumber p 1 }
    change fun s => { s with paddingOuter := p }
  | .padding, none =>
    let s := (← get).settings
    return .number (if s.point then s.paddingOuter else s.paddingInner)
  | .paddingInner, some v =>
    if point then refuse else change fun s => { s with paddingInner := minNumber v.toNumber 1 }
  | .paddingInner, none => if point then refuse else return .number (← get).settings.paddingInner
  | .paddingOuter, some v =>
    if point then refuse else change fun s => { s with paddingOuter := v.toNumber }
  | .paddingOuter, none => if point then refuse else return .number (← get).settings.paddingOuter
  | .bandwidth, _ => return .number (← get).layout.bandwidth
  | .step, _ => return .number (← get).layout.step
  | _, _ => refuse
  modify rescale
  return .undefined

theorem on_setRangeWork (v : Value) (s : Band) :
    (setRangeWork v).on s = .ok (.ok ⟨⟩, { s with settings := withRange s.settings v }) := by
  unfold setRangeWork withRange
  generalize numbersOf v = xs
  rcases xs with _ | ⟨a, _ | ⟨b, _ | ⟨c, rest⟩⟩⟩ <;> rfl

theorem range_does (args : List Value) :
    (work .range args).Does fun s => liftM (s.call .range args) := by
  refine .of_except fun s => ?_
  match args with
  | [] => rfl
  | v :: rest =>
    have hwork : (work .range (v :: rest)).on s = ((do
      setRangeWork v
      modify rescale
      return .undefined) : InPlace Band ScaleError Value).on s := rfl
    rw [hwork, InPlace.on_bind, on_setRangeWork]
    rfl

theorem rangeRound_does (args : List Value) :
    (work .rangeRound args).Does fun s => liftM (s.call .rangeRound args) := by
  refine .of_except fun s => ?_
  match args with
  | [] => rfl
  | v :: rest =>
    have hwork : (work .rangeRound (v :: rest)).on s = ((do
      setRangeWork v
      modify fun s => { s with settings := { s.settings with rounds := true } }
      modify rescale
      return .undefined) : InPlace Band ScaleError Value).on s := rfl
    rw [hwork, InPlace.on_bind, on_setRangeWork]
    rfl

theorem align_does (args : List Value) :
    (work .align args).Does fun s => liftM (s.call .align args) := by
  refine .of_except fun s => ?_
  match args with
  | [] => rfl
  | v :: rest =>
    have hwork : (work .align (v :: rest)).on s = ((do
      let align ← Abort.ofFault (clampBetween 0 1 v.toNumber)
      modify fun s => { s with settings := { s.settings with align } }
      modify rescale
      return .undefined) : InPlace Band ScaleError Value).on s := rfl
    rw [hwork, InPlace.on_lift_bind, clampBetween_unit]
    rfl

/-- **A method** writes nothing before it is refused. -/
theorem work_does (m : ScaleMethod) (args : List Value) :
    (work m args).Does fun s => liftM (s.call m args) := by
  cases m with
  | range => exact range_does args
  | rangeRound => exact rangeRound_does args
  | align => exact align_does args
  | _ =>
    -- Whether a scale has points decides which paddings it has.
    rintro ⟨⟨point, domain, start, stop, inner, outer, align, rounds⟩, layout⟩
    cases args <;> cases point <;> rfl

end Band

/-! ## Ordinal scales -/

namespace Ordinal

variable {ε : Type}

/-- The entry of the range for the `i`th entry of the domain. -/
def entryWork (i : Nat) : InPlace Ordinal ε Value := do
  let s ← get
  if s.range.isEmpty then return s.unknown.getD .undefined
  return ← entryAt s.range (i % s.range.length)

/-- The value of the range for a value. What is not in the domain is added to it. -/
def applyWork (v : Value) : InPlace Ordinal ε Value := do
  let s ← get
  match s.domain.findIdx? fun d => d.strictEq v with
  | some i => entryWork i
  | none =>
    match s.unknown with
    | some u => return u
    | none =>
      modify fun s => { s with domain := s.domain ++ [v] }
      entryWork ((← get).domain.length - 1)

/-- Calls a method, setting by setting. -/
def work (m : ScaleMethod) (args : List Value) : InPlace Ordinal ScaleError Value := do
  match m, args.head? with
  | .domain, some v => modify fun s => { s with domain := Value.distinct (v.items?.getD []) }
  | .domain, none => return .array (← get).domain
  | .range, some v => modify fun s => { s with range := v.items?.getD [] }
  | .range, none => return .array (← get).range
  | .unknown, some v => modify fun s => { s with unknown := some v }
  | .unknown, none => return (← get).unknown.getD .undefined
  | _, _ => throw (.unsupported m .ordinal)
  return .undefined

theorem on_entryWork (i : Nat) (s : Ordinal) :
    (entryWork i : InPlace Ordinal ε Value).on s = .ok (.ok (s.entry i), s) := by
  unfold entryWork
  rw [InPlace.on_get_bind]
  cases hrange : s.range with
  | nil =>
    unfold entry
    rw [hrange]
    rfl
  | cons v rest =>
    have hlt : i % (v :: rest).length < (v :: rest).length := Nat.mod_lt _ (Nat.succ_pos _)
    have hentry : entryAt (v :: rest) (i % (v :: rest).length) = .ok (s.entry i) := by
      unfold entry
      rw [entryAt, hrange, List.getElem?_eq_getElem hlt]
      rfl
    rw [hentry]
    rfl

theorem applyWork_does (v : Value) :
    (applyWork v : InPlace Ordinal ε Value).Does fun s => pure (s.apply v) := by
  refine .of_eq fun s => ?_
  unfold applyWork apply
  rw [InPlace.on_get_bind]
  cases s.domain.findIdx? fun d => d.strictEq v with
  | some i => exact on_entryWork i s
  | none =>
    cases hunknown : s.unknown with
    | some u => rfl
    | none =>
      show (entryWork ((s.domain ++ [v]).length - 1)).on { s with domain := s.domain ++ [v] } = _
      rw [on_entryWork, hunknown]
      rfl

/-- **A method** writes nothing before it is refused. -/
theorem work_does (m : ScaleMethod) (args : List Value) :
    (work m args).Does fun s => liftM (s.call m args) := by
  intro s
  cases m <;> cases args <;> rfl

end Ordinal

/-! ## All scales -/

namespace Scale

variable {ε : Type}

def work (m : ScaleMethod) (args : List Value) : InPlace Scale ScaleError Value := do
  match ← get with
  | continuous s => (Continuous.work m args).onPart s continuous
  | sequential s => (Sequential.work m args).onPart s sequential
  | quantize s => (Quantize.work m args).onPart s quantize
  | threshold s => (Threshold.work m args).onPart s threshold
  | band s => (Band.work m args).onPart s band
  | ordinal s => (Ordinal.work m args).onPart s ordinal

/-- The value of the range for a value of the domain. -/
def applyWork (v : Value) : InPlace Scale ε Value := do
  match ← get with
  | continuous s => return ← s.applyAt v
  | sequential s => return ← s.applyAt v
  | quantize s => return s.apply v
  | threshold s => return ← s.applyAt v
  | band s => return s.apply v
  | ordinal s => (Ordinal.applyWork v).onPart s ordinal

/-- **A method of a scale** does what the call that runs does: it writes nothing before it is refused,
and takes entries of lists only where they are. -/
theorem work_does (m : ScaleMethod) (args : List Value) : (work m args).Does fun s => s.call m args := by
  refine .of_eq fun s => ?_
  unfold work call
  rw [InPlace.on_get_bind]
  cases s with
  | continuous s => exact (Continuous.work_does m args).onPart rfl
  | sequential s => exact (Sequential.work_does m args).onPart rfl
  | quantize s => exact (Quantize.work_does m args).onPart rfl
  | threshold s => exact (Threshold.work_does m args).onPart rfl
  | band s => exact (Band.work_does m args).onPart rfl
  | ordinal s => exact (Ordinal.work_does m args).onPart rfl

/-- **Applying a scale** takes entries of lists only where they are. -/
theorem applyWork_does (v : Value) :
    (applyWork v : InPlace Scale ε Value).Does fun s => liftM (s.apply v) := by
  refine .of_eq fun s => ?_
  unfold applyWork apply
  rw [InPlace.on_get_bind]
  cases s with
  | continuous s =>
    dsimp only
    rw [Continuous.applyAt_eq]
    cases s.apply v <;> rfl
  | sequential s =>
    dsimp only
    rw [Sequential.applyAt_eq]
    rfl
  | quantize s => rfl
  | threshold s =>
    dsimp only
    rw [Threshold.applyAt_eq]
    rfl
  | band s => rfl
  | ordinal s => exact (Ordinal.applyWork_does v).onPart rfl

/-! ## Making scales -/

/-- The scale with a setting changed by a method; a refusal is not looked at. -/
def configureAt (s : Scale) (m : ScaleMethod) (v : Value) : Except Abort Scale :=
  Prod.snd <$> (work m [v]).on s

def makeAt (kind : ScaleKind) (args : List Value) : Except Abort Scale := do
  let s := default kind
  match args with
  | [] => return s
  | [v] => s.configureAt (if kind = .sequential ∨ kind = .diverging then .domain else .range) v
  | d :: r :: _ => (← s.configureAt .domain d).configureAt .range r

theorem configureAt_domain (s : Scale) (v : Value) :
    s.configureAt .domain v = .ok (s.configure .domain v) := by
  unfold configureAt
  rw [work_does]
  cases s <;> rfl

theorem configureAt_range (s : Scale) (v : Value) :
    s.configureAt .range v = .ok (s.configure .range v) := by
  unfold configureAt
  rw [work_does]
  cases s <;> rfl

/-- **Making a scale** is never cut off. -/
theorem makeAt_eq (kind : ScaleKind) (args : List Value) : makeAt kind args = .ok (make kind args) := by
  unfold makeAt make
  match args with
  | [] => rfl
  | [v] =>
    dsimp only
    split
    · exact configureAt_domain _ v
    · exact configureAt_range _ v
  | d :: r :: rest =>
    dsimp only
    rw [configureAt_domain, ok_bind]
    exact configureAt_range _ r

end Scale

end ChartTemplate
