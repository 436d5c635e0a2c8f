import Mathlib
import ChartTemplate.Proofs.InPlace.Work
import ChartTemplate.Ticks.Time
import ChartTemplate.Value.Interpolation

/-!
# Ticks, niced domains and stops by place

Where ticks, niced domains and stops take an entry of a list, the entry is there. Each function that
takes entries by their places is shown to be the one that runs.
-/

namespace ChartTemplate

/-! ## Ends of domains -/

/-- Replaces the entries at two places by what functions make of them. -/
def moveAt (xs : List Float) (i j : Nat) (down up : Float → Except Fault Float) :
    Except Abort (List Float) := do
  let low ← Abort.ofFault (down (← entryAt xs i))
  let xs ← replacedAt xs i low
  let high ← Abort.ofFault (up (← entryAt xs j))
  replacedAt xs j high

/-- Moves the ends of a domain with functions for the lower and the upper end. -/
def niceWithAt (xs : List Float) (down up : Float → Except Fault Float) : Except Abort (List Float) := do
  if xs.length < 2 then return xs
  let first ← entryAt xs 0
  let last ← entryAt xs (xs.length - 1)
  if last < first then moveAt xs (xs.length - 1) 0 down up else moveAt xs 0 (xs.length - 1) down up

/-- Replaces the entries at two places by round values around them. -/
def roundAt (xs : List Float) (i j : Nat) (count : Float) : Except Abort (List Float) := do
  match niceEnds? count 10 none (← entryAt xs i) (← entryAt xs j) with
  | some (low, high) => replacedAt (← replacedAt xs i low) j high
  | none => return xs

/-- Moves the ends of a domain out to round values. -/
def niceLinearAt (xs : List Float) (count : Float) : Except Abort (List Float) := do
  if xs.length < 2 then return xs
  let first ← entryAt xs 0
  let last ← entryAt xs (xs.length - 1)
  if last < first then roundAt xs (xs.length - 1) 0 count else roundAt xs 0 (xs.length - 1) count

section

variable {xs : List Float} {i j : Nat} {a b : Float}

theorem lt_length_of_entryAt {α : Type} {xs : List α} {a : α} (h : entryAt xs i = .ok a) :
    i < xs.length := by
  by_contra hi
  rw [entryAt, List.getElem?_eq_none (Nat.not_lt.mp hi)] at h
  cases h

theorem moveAt_eq (hij : i ≠ j) (ha : entryAt xs i = .ok a) (hb : entryAt xs j = .ok b)
    (down up : Float → Except Fault Float) :
    moveAt xs i j down up = Abort.ofFault (do
      let low ← down a
      let high ← up b
      pure ((xs.set i low).set j high)) := by
  have hi : i < xs.length := lt_length_of_entryAt ha
  have hj : j < xs.length := lt_length_of_entryAt hb
  unfold moveAt
  rw [ha, ok_bind, Abort.ofFault_bind]
  congr 1
  funext low
  rw [replacedAt_eq hi, ok_bind, entryAt_set_of_ne hij, hb, ok_bind, Abort.ofFault_bind]
  congr 1
  funext high
  exact replacedAt_eq (by rwa [List.length_set]) high

theorem roundAt_eq (ha : entryAt xs i = .ok a) (hb : entryAt xs j = .ok b) (count : Float) :
    roundAt xs i j count = .ok (match niceEnds? count 10 none a b with
      | some (low, high) => (xs.set i low).set j high
      | none => xs) := by
  have hi : i < xs.length := lt_length_of_entryAt ha
  have hj : j < xs.length := lt_length_of_entryAt hb
  unfold roundAt
  rw [ha, hb, ok_bind, ok_bind]
  split
  · rw [replacedAt_eq hi, ok_bind]
    exact replacedAt_eq (by rwa [List.length_set]) _
  · rfl

end

theorem niceWithAt_eq (xs : List Float) (down up : Float → Except Fault Float) :
    niceWithAt xs down up = Abort.ofFault (niceWith xs down up) := by
  match xs with
  | [] => rfl
  | [x] => rfl
  | x :: y :: rest =>
    have hfirst : entryAt (x :: y :: rest) 0 = .ok x := rfl
    have hlast : entryAt (x :: y :: rest) (rest.length + 1) = .ok ((y :: rest).getLastD y) :=
      entryAt_last x (y :: rest)
    unfold niceWithAt niceWith
    rw [if_neg (by simp)]
    show (entryAt (x :: y :: rest) (rest.length + 1) >>= fun last => _) = _
    rw [hlast, ok_bind]
    dsimp only
    split
    · rename_i hdescending
      rw [decide_eq_true hdescending]
      exact moveAt_eq (by simp) hlast hfirst down up
    · rename_i hascending
      rw [decide_eq_false hascending]
      exact moveAt_eq (by simp) hfirst hlast down up

theorem niceLinearAt_eq (xs : List Float) (count : Float) :
    niceLinearAt xs count = .ok (niceLinear xs count) := by
  match xs with
  | [] => rfl
  | [x] => rfl
  | x :: y :: rest =>
    have hfirst : entryAt (x :: y :: rest) 0 = .ok x := rfl
    have hlast : entryAt (x :: y :: rest) (rest.length + 1) = .ok ((y :: rest).getLastD y) :=
      entryAt_last x (y :: rest)
    unfold niceLinearAt niceLinear
    rw [if_neg (by simp)]
    show (entryAt (x :: y :: rest) (rest.length + 1) >>= fun last => _) = _
    rw [hlast, ok_bind]
    dsimp only
    split
    · rename_i hdescending
      rw [decide_eq_true hdescending]
      exact roundAt_eq hlast hfirst count
    · rename_i hascending
      rw [decide_eq_false hascending]
      exact roundAt_eq hfirst hlast count

/-! ## Intervals of time -/

/-- The interval that gives about `count` boundaries between two instants. -/
def TimeInterval.forSpanAt (start stop count : Float) : Except Abort TimeInterval := do
  let target := (stop - start).abs / count
  let steps (x : Float) : Int := toInt64Clamped (maxNumber x.abs 1)
  let i := (tickIntervals.takeWhile fun p => p.2 ≤ target).length
  if i = tickIntervals.length then
    return ⟨.year, steps (tickStep (start / yearMillis) (stop / yearMillis) count)⟩
  if i = 0 then return ⟨.millisecond, steps (tickStep start stop count)⟩
  let below ← entryAt tickIntervals (i - 1)
  let above ← entryAt tickIntervals i
  return if target / below.2 < above.2 / target then below.1 else above.1

theorem TimeInterval.nearest_eq (target : Float) (p : TimeInterval × Float)
    (rest : List (TimeInterval × Float)) :
    nearest target (p :: rest) =
      (rest[(rest.takeWhile fun q => q.2 ≤ target).length]?).map fun above =>
        let below := (p :: rest).getD (rest.takeWhile fun q => q.2 ≤ target).length p
        if target / below.2 < above.2 / target then below.1 else above.1 := by
  induction rest generalizing p with
  | nil => rfl
  | cons q rest ih =>
    rw [nearest]
    by_cases hq : q.2 ≤ target
    · rw [if_pos hq, ih, List.takeWhile_cons_of_pos (by simpa using hq)]
      show Option.map _ _ = Option.map _ (rest[(rest.takeWhile fun q => q.2 ≤ target).length]?)
      congr 1
      funext above
      have hle : (rest.takeWhile fun q => q.2 ≤ target).length < (q :: rest).length :=
        Nat.lt_succ_of_le (List.takeWhile_sublist _).length_le
      have hbelow : (q :: rest).getD (rest.takeWhile fun q => q.2 ≤ target).length q =
          (p :: q :: rest).getD ((rest.takeWhile fun q => q.2 ≤ target).length + 1) p := by
        rw [List.getD_cons_succ, List.getD_eq_getElem?_getD, List.getD_eq_getElem?_getD,
          List.getElem?_eq_getElem hle]
        rfl
      rw [hbelow]
      rfl
    · rw [if_neg hq, List.takeWhile_cons_of_neg (by simpa using hq)]
      rfl

theorem TimeInterval.forSpanAt_eq (start stop count : Float) :
    forSpanAt start stop count = .ok (forSpan start stop count) := by
  unfold forSpanAt forSpan
  generalize (stop - start).abs / count = target
  dsimp only
  -- the table is opened at its first interval, below which boundaries are in milliseconds
  obtain ⟨rest, hrest⟩ : ∃ rest, tickIntervals = (⟨.second, 1⟩, 1000) :: rest := ⟨_, rfl⟩
  rw [hrest]
  by_cases htarget : (1000 : Float) ≤ target
  · rw [List.takeWhile_cons_of_pos (by simpa using htarget), nearest_eq]
    generalize hk : (rest.takeWhile fun q => q.2 ≤ target).length = k
    have hle : k ≤ rest.length := hk ▸ (List.takeWhile_sublist _).length_le
    simp only [List.length_cons, hk, htarget, decide_true, Bool.not_true, Bool.false_eq_true, if_false]
    by_cases hend : k = rest.length
    · rw [if_pos (by rw [hend]), List.getElem?_eq_none (by rw [hend])]
      rfl
    · have hlt : k < rest.length := lt_of_le_of_ne hle hend
      rw [if_neg (by omega), if_neg (by omega), Nat.add_sub_cancel,
        entryAt_eq_getD (by rw [List.length_cons]; omega) (⟨.second, 1⟩, 1000), ok_bind,
        List.getElem?_eq_getElem hlt]
      show (entryAt rest k >>= fun above => _) = _
      rw [entryAt, List.getElem?_eq_getElem hlt]
      rfl
  · rw [List.takeWhile_cons_of_neg (by simpa using htarget)]
    simp only [List.length_cons, List.length_nil, htarget, decide_false, Bool.not_false, if_true]
    rfl

/-- About `count` boundaries of calendar units from `start` to `stop`. -/
def timeTicksAt (start stop count : Float) : Except Abort (List Float) := do
  if stop < start then
    let interval ← TimeInterval.forSpanAt stop start count
    return (← Abort.ofFault (interval.range stop start)).reverse
  else
    let interval ← TimeInterval.forSpanAt start stop count
    Abort.ofFault (interval.range start stop)

theorem timeTicksAt_eq (start stop count : Float) :
    timeTicksAt start stop count = Abort.ofFault (timeTicks start stop count) := by
  unfold timeTicksAt timeTicks
  rw [TimeInterval.forSpanAt_eq, TimeInterval.forSpanAt_eq, ok_bind, ok_bind]
  split
  · cases (TimeInterval.forSpan stop start count).range stop start <;> rfl
  · rfl

/-! ## Stops -/

/-- The value at `t` on the way through evenly spaced stops. -/
def Value.piecewiseAt (stops : List Value) (t : Float) : Except Abort Value := do
  match stops with
  | [] => return undefined
  | [v] => return v
  | _ =>
    let n := stops.length - 1
    let scaled := t * Float.ofNat n
    let i := (clampInt 0 (n - 1 : Nat) (floor scaled)).toNat
    return (← entryAt stops i).interpolate (← entryAt stops (i + 1)) (scaled - Float.ofNat i)

theorem clampInt_le (lo hi : Int) (hlo : lo ≤ hi) (hzero : 0 ≤ hi) (x : Float) :
    clampInt lo hi x ≤ hi := by
  unfold clampInt
  split
  · exact hzero
  · split
    · split
      · exact hlo
      · exact le_refl hi
    · omega

theorem Value.piecewiseAt_eq (stops : List Value) (t : Float) :
    piecewiseAt stops t = .ok (piecewise stops t) := by
  match stops with
  | [] => rfl
  | [v] => rfl
  | v :: w :: rest =>
    unfold piecewiseAt piecewise
    dsimp only
    -- the place is at most two below the number of stops, so that the next one is there too
    have hle := clampInt_le 0 ((v :: w :: rest).length - 1 - 1 : Nat) (by omega) (by omega)
      (floor (t * Float.ofNat ((v :: w :: rest).length - 1)))
    generalize clampInt 0 _ _ = i at *
    have hi : i.toNat + 1 < (v :: w :: rest).length := by
      rw [List.length_cons, List.length_cons] at hle ⊢
      omega
    rw [entryAt_eq_getD (Nat.lt_of_succ_lt hi) undefined, entryAt_eq_getD hi undefined]
    rfl

end ChartTemplate
