import Mathlib
import ChartTemplate.Proofs.InPlace.Ticks
import ChartTemplate.Scale.Continuous

/-!
# Continuous scales in place

`Continuous.work` calls a method of a continuous scale setting by setting, and `applyAt` and `invertAt`
take the entries between which a number lies by their places. A refused method has written nothing
(`work_does`), and all entries are there (`applyAt_eq`, `invertAt_eq`).
-/

namespace ChartTemplate

variable {α : Type}

/-! ## Segments -/

/-- How many entries between the first and the last are at most `x`. -/
def segmentAt (xs : List Float) (x : Float) : Except Abort Nat := do
  return ((← partAt xs 1 (xs.length - 1)).filter fun v => v ≤ x).length

/-- The place of `x` in the segment from an entry to the next one. -/
def placeAt (xs : List Float) (i : Nat) (x : Float) : Except Abort Float := do
  return normalize (← entryAt xs i) (← entryAt xs (i + 1)) x

section

variable {xs : List Float} {i : Nat}

theorem segment_lt (h : 2 ≤ xs.length) (x : Float) : segmentOf xs x + 1 < xs.length := by
  have hle : segmentOf xs x ≤ xs.tail.dropLast.length := List.length_filter_le _ _
  rw [List.length_dropLast, List.length_tail] at hle
  omega

theorem segmentAt_eq (h : 2 ≤ xs.length) (x : Float) : segmentAt xs x = .ok (segmentOf xs x) := by
  unfold segmentAt
  rw [partAt_eq (by omega) (by omega), ← List.dropLast_eq_take, List.drop_one, List.tail_dropLast]
  rfl

theorem placeAt_eq (h : i + 1 < xs.length) (x : Float) :
    placeAt xs i x = .ok (normalize (xs.getD i notANumber) (xs.getD (i + 1) notANumber) x) := by
  unfold placeAt
  rw [entryAt_eq_getD (Nat.lt_of_succ_lt h) notANumber, entryAt_eq_getD h notANumber]
  rfl

end

namespace Continuous

/-- Two lists in the order in which the first runs upward, which its ends tell. -/
def ascendingAt (xs : List Float) (ys : List α) : Except Abort (List Float × List α) := do
  if (← entryAt xs (xs.length - 1)) < (← entryAt xs 0) then return (xs.reverse, ys.reverse)
  else return (xs, ys)

theorem ascendingAt_eq {xs : List Float} (h : 0 < xs.length) (ys : List α) :
    ascendingAt xs ys = .ok (ascending xs ys) := by
  match xs, h with
  | x :: rest, _ =>
    unfold ascendingAt ascending endsOf?
    show (entryAt (x :: rest) rest.length >>= fun last => _) = _
    rw [entryAt_last, ok_bind]
    show (if rest.getLastD x < x then _ else _) =
      Except.ok (if rest.getLastD x < x then ((x :: rest).reverse, ys.reverse) else (x :: rest, ys))
    split <;> rfl

theorem length_ascending (xs : List Float) (ys : List α) :
    (ascending xs ys).1.length = xs.length ∧ (ascending xs ys).2.length = ys.length := by
  unfold ascending
  split
  · split
    · exact ⟨List.length_reverse, List.length_reverse⟩
    · exact ⟨rfl, rfl⟩
  · exact ⟨rfl, rfl⟩

/-! ## Applying and inverting -/

/-- Keeps a number within the entries of the domain that count if the scale says so. -/
def clampedAt (s : Continuous) (x : Float) : Except Abort Float := do
  if s.clamp then
    let (lo, hi) := extent (← partAt s.domain 0 s.size)
    Abort.ofFault (clampBetween lo hi x)
  else return x

/-- The value of the range for a value of the domain. -/
def applyAt (s : Continuous) (v : Value) : Except Abort Value := do
  let x := s.input v
  if x.isNaN || s.size < 2 then return s.unknown
  let x ← s.clampedAt x
  let d := (← partAt s.domain 0 s.size).map s.forward
  let (d, r) ← ascendingAt d (← partAt s.stops 0 s.size)
  let y := s.forward x
  let i ← segmentAt d y
  let t ← placeAt d i y
  return s.rounded (s.unsquare ((← entryAt r i).interpolate (← entryAt r (i + 1)) t))

/-- The number of the domain for a number of the range. -/
def invertAt (s : Continuous) (y : Float) : Except Abort Float := do
  if y.isNaN || s.size < 2 then return notANumber
  let y := if s.transform = .radial then signum y * y * y else y
  let r := (← partAt s.stops 0 s.size).map Value.toNumber
  let (r, d) ← ascendingAt r ((← partAt s.domain 0 s.size).map s.forward)
  let i ← segmentAt r y
  let t ← placeAt r i y
  s.clampedAt (s.backward (lerp (← entryAt d i) (← entryAt d (i + 1)) t))

variable {s : Continuous}

theorem length_stops (s : Continuous) : s.stops.length = s.range.length := by
  unfold stops
  split
  · exact List.length_map _
  · rfl

theorem partAt_domain (s : Continuous) : partAt s.domain 0 s.size = .ok (s.domain.take s.size) :=
  partAt_zero (Nat.min_le_left _ _)

theorem partAt_stops (s : Continuous) : partAt s.stops 0 s.size = .ok (s.stops.take s.size) := by
  refine partAt_zero ?_
  rw [length_stops]
  exact Nat.min_le_right _ _

theorem length_take_domain (s : Continuous) : (s.domain.take s.size).length = s.size :=
  List.length_take_of_le (Nat.min_le_left _ _)

theorem length_take_stops (s : Continuous) : (s.stops.take s.size).length = s.size := by
  refine List.length_take_of_le ?_
  rw [length_stops]
  exact Nat.min_le_right _ _

theorem clampedAt_eq (s : Continuous) (x : Float) :
    s.clampedAt x = Abort.ofFault (s.clamped x) := by
  unfold clampedAt clamped
  rw [partAt_domain]
  split <;> rfl

theorem applyAt_eq (s : Continuous) (v : Value) : s.applyAt v = Abort.ofFault (s.apply v) := by
  unfold applyAt apply
  dsimp only
  split
  · rfl
  · rename_i hnumber
    have hsize : 2 ≤ s.size := by
      simp only [Bool.or_eq_true, decide_eq_true_eq, not_or, Nat.not_lt] at hnumber
      exact hnumber.2
    rw [clampedAt_eq, Abort.ofFault_bind]
    congr 1
    funext x
    rw [partAt_domain, partAt_stops, ok_bind, ok_bind]
    have hd : ((s.domain.take s.size).map s.forward).length = s.size := by
      rw [List.length_map, length_take_domain]
    rw [ascendingAt_eq (by omega), ok_bind]
    obtain ⟨hlength, hlength'⟩ := length_ascending ((s.domain.take s.size).map s.forward)
      (s.stops.take s.size)
    rw [hd] at hlength
    rw [length_take_stops] at hlength'
    generalize ascending _ _ = a at hlength hlength' ⊢
    obtain ⟨d, r⟩ := a
    dsimp only at hlength hlength' ⊢
    have hi := segment_lt (hsize.trans_eq hlength.symm) (s.forward x)
    rw [segmentAt_eq (by omega), ok_bind, placeAt_eq hi, ok_bind,
      entryAt_eq_getD (by omega) .undefined, ok_bind, entryAt_eq_getD (by omega) .undefined, ok_bind]
    rfl

theorem invertAt_eq (s : Continuous) (y : Float) : s.invertAt y = Abort.ofFault (s.invert y) := by
  unfold invertAt invert
  split
  · rfl
  · rename_i hnumber
    have hsize : 2 ≤ s.size := by
      simp only [Bool.or_eq_true, decide_eq_true_eq, not_or, Nat.not_lt] at hnumber
      exact hnumber.2
    dsimp only
    generalize (if s.transform = .radial then signum y * y * y else y) = y
    rw [partAt_domain, partAt_stops, ok_bind, ok_bind]
    have hr : ((s.stops.take s.size).map Value.toNumber).length = s.size := by
      rw [List.length_map, length_take_stops]
    rw [ascendingAt_eq (by omega), ok_bind]
    obtain ⟨hlength, hlength'⟩ := length_ascending ((s.stops.take s.size).map Value.toNumber)
      ((s.domain.take s.size).map s.forward)
    rw [hr] at hlength
    rw [List.length_map, length_take_domain] at hlength'
    generalize ascending _ _ = a at hlength hlength' ⊢
    obtain ⟨r, d⟩ := a
    dsimp only at hlength hlength' ⊢
    have hi := segment_lt (hsize.trans_eq hlength.symm) y
    rw [segmentAt_eq (by omega), ok_bind, placeAt_eq hi, ok_bind,
      entryAt_eq_getD (by omega) notANumber, ok_bind, entryAt_eq_getD (by omega) notANumber, ok_bind,
      clampedAt_eq]

/-! ## Ticks -/

/-- About `count` round numbers of the domain. -/
def ticksAt (s : Continuous) (count : Float) : Except Abort (List Float) :=
  match endsOf? s.domain with
  | none => pure []
  | some (start, stop) =>
    match s.transform with
    | .log base => pure (logTicks s.reflect base start stop count)
    | .time => timeTicksAt start stop count
    | _ => pure (ChartTemplate.ticks start stop count)

/-- Moves the ends of the domain out to round numbers. -/
def niceAt (s : Continuous) (count : Float) : Except Abort Continuous := do
  match s.transform with
  | .log base =>
    let snap (f : Float → Float) (x : Float) : Except Fault Float :=
      pure (power s.reflect base (f (logarithm s.reflect base x)))
    return { s with domain := ← niceWithAt s.domain (snap floor) (snap ceil) }
  | .time =>
    match endsOf? s.domain with
    | none => return s
    | some (start, stop) =>
      let i ← TimeInterval.forSpanAt (minNumber start stop) (maxNumber start stop) count
      return { s with domain := ← niceWithAt s.domain i.floor i.ceil }
  | _ => return { s with domain := ← niceLinearAt s.domain count }

theorem ticksAt_eq (s : Continuous) (count : Float) :
    s.ticksAt count = Abort.ofFault (s.ticks count) := by
  unfold ticksAt ticks
  cases endsOf? s.domain with
  | none => rfl
  | some ends =>
    cases s.transform with
    | time => exact timeTicksAt_eq ends.1 ends.2 count
    | _ => rfl

theorem niceAt_eq (s : Continuous) (count : Float) :
    s.niceAt count = Abort.ofFault (s.nice count) := by
  unfold niceAt nice
  cases s.transform with
  | log base =>
    dsimp only
    rw [niceWithAt_eq, Abort.ofFault_bind]
    rfl
  | time =>
    cases endsOf? s.domain with
    | none => rfl
    | some ends =>
      dsimp only
      rw [TimeInterval.forSpanAt_eq, ok_bind, niceWithAt_eq, Abort.ofFault_bind]
      rfl
  | _ =>
    dsimp only
    rw [niceLinearAt_eq]
    rfl

/-! ## Methods -/

/-- Calls a method, setting by setting. -/
def work (m : ScaleMethod) (args : List Value) : InPlace Continuous ScaleError Value := do
  match m, args.head? with
  | .domain, some v => modify fun s => s.setDomain v
  | .domain, none => return .array ((← get).domain.map (← get).domainValue)
  | .range, some v => modify fun s => { s with range := v.items?.getD [] }
  | .range, none => return .array (← get).range
  | .rangeRound, some v =>
    modify fun s => { s with range := v.items?.getD [] }
    modify fun s => { s with rounds := true }
  | .clamp, some v => modify fun s => { s with clamp := v.isTruthy }
  | .clamp, none => return .bool (← get).clamp
  | .round, some v => modify fun s => { s with rounds := v.isTruthy }
  | .round, none => return .bool (← get).rounds
  | .unknown, some v => modify fun s => { s with unknown := v }
  | .unknown, none => return (← get).unknown
  | .nice, _ =>
    let count ← countArgument args
    set (← (← get).niceAt count)
  | .ticks, _ =>
    let count ← countArgument args
    let xs ← (← get).ticksAt count
    return .array (xs.map (← get).domainValue)
  | .invert, some v =>
    let x ← (← get).invertAt v.toNumber
    return (← get).domainValue x
  | .base, arg =>
    match (← get).transform, arg with
    | .log _, some v => modify fun s => { s with transform := .log v.toNumber }
    | .log base, none => return .number base
    | _, _ => throw (.unsupported m (← get).kind)
  | .exponent, arg =>
    match (← get).transform, arg with
    | .pow _, some v => modify fun s => { s with transform := .pow v.toNumber }
    | .pow exponent, none => return .number exponent
    | _, _ => throw (.unsupported m (← get).kind)
  | _, _ => throw (.unsupported m (← get).kind)
  return .undefined

theorem call_nice (s : Continuous) (args : List Value) : s.call .nice args = (do
    let count ← countArgument args
    let t ← s.nice count
    return (t, .undefined)) := by
  cases args.head? <;> rfl

theorem call_ticks (s : Continuous) (args : List Value) : s.call .ticks args = (do
    let count ← countArgument args
    let xs ← s.ticks count
    return (s, .array (xs.map s.domainValue))) := by
  cases args.head? <;> rfl

theorem nice_does (args : List Value) : (work .nice args).Does fun s => s.call .nice args := by
  refine .of_eq fun s => ?_
  have hwork : work .nice args = (do
      let count ← countArgument args
      set (← (← get).niceAt count)
      return .undefined) := by cases args.head? <;> rfl
  rw [hwork, call_nice, InPlace.on_liftError_bind, Checked.onto_liftError_bind]
  cases countArgument args with
  | error e => rfl
  | ok count =>
    dsimp only
    rw [InPlace.on_get_bind, InPlace.on_lift_bind, niceAt_eq, Checked.onto_lift_bind]
    rfl

theorem ticks_does (args : List Value) : (work .ticks args).Does fun s => s.call .ticks args := by
  refine .of_eq fun s => ?_
  have hwork : work .ticks args = (do
      let count ← countArgument args
      let xs ← (← get).ticksAt count
      return .array (xs.map (← get).domainValue)) := by cases args.head? <;> rfl
  rw [hwork, call_ticks, InPlace.on_liftError_bind, Checked.onto_liftError_bind]
  cases countArgument args with
  | error e => rfl
  | ok count =>
    dsimp only
    rw [InPlace.on_get_bind, InPlace.on_lift_bind, ticksAt_eq, Checked.onto_lift_bind]
    rfl

theorem invert_does (args : List Value) : (work .invert args).Does fun s => s.call .invert args := by
  refine .of_eq fun s => ?_
  match args with
  | [] => rfl
  | v :: rest =>
    have hwork : work .invert (v :: rest) = (do
      let x ← (← get).invertAt v.toNumber
      return (← get).domainValue x) := rfl
    have hcall : s.call .invert (v :: rest) = (do
      let x ← s.invert v.toNumber
      return (s, s.domainValue x)) := rfl
    rw [hwork, hcall, InPlace.on_get_bind, InPlace.on_lift_bind, invertAt_eq, Checked.onto_lift_bind]
    rfl

/-- **A method** writes nothing before it is refused. -/
theorem work_does (m : ScaleMethod) (args : List Value) : (work m args).Does fun s => s.call m args := by
  cases m with
  | nice => exact nice_does args
  | ticks => exact ticks_does args
  | invert => exact invert_does args
  | base =>
    rintro ⟨transform, domain, range, clamp, rounds, unknown⟩
    cases args <;> cases transform <;> rfl
  | exponent =>
    rintro ⟨transform, domain, range, clamp, rounds, unknown⟩
    cases args <;> cases transform <;> rfl
  | _ =>
    intro s
    cases args <;> rfl

end Continuous

end ChartTemplate
