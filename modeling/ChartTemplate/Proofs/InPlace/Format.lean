import ChartTemplate.Proofs.Format.Grouping
import ChartTemplate.Proofs.InPlace.CutOff

/-!
# Formats that take parts of texts

The formatters cut digits at places that they compute, subtract lengths, and look the prefix of an
exponent up in a table. Here each cut, each difference and each place is checked, and what does not
exist cuts the work off. `NumberFormat.formatAt_eq` : the work is never cut off in a place where the
format has a text. `NumberFormat.formatAt_ofSpec_iff` : it is cut off for infinite numbers that are to
have a point in their exponential form, and for no others.
-/

namespace ChartTemplate

/-! ## Counts -/

/-- The difference of two counts; there is none below zero. -/
def differenceAt (m n : Nat) : Except Abort Nat :=
  if n ≤ m then .ok (m - n) else .error .outOfBounds

/-- An integer as a count or a place; there is none below zero. -/
def countAt (n : Int) : Except Abort Nat :=
  if 0 ≤ n then .ok n.toNat else .error .outOfBounds

theorem differenceAt_eq {m n : Nat} (h : n ≤ m) : differenceAt m n = .ok (m - n) :=
  if_pos h

theorem countAt_eq {n : Int} (h : 0 ≤ n) : countAt n = .ok n.toNat :=
  if_pos h

def fromAt (cs : List Char) (i : Nat) : Except Abort (List Char) :=
  partAt cs i cs.length

theorem fromAt_eq {cs : List Char} {i : Nat} (h : i ≤ cs.length) : fromAt cs i = .ok (cs.drop i) := by
  rw [fromAt, partAt_eq h le_rfl, List.take_length]

/-- A text cut in two by a point. -/
def pointAt (cs : List Char) (i : Nat) : Except Abort (List Char) := do
  return (← partAt cs 0 i) ++ '.' :: (← fromAt cs i)

theorem pointAt_eq {cs : List Char} {i : Nat} (h : i ≤ cs.length) :
    pointAt cs i = .ok (cs.take i ++ '.' :: cs.drop i) := by
  rw [pointAt, partAt_zero h, fromAt_eq h]
  rfl

/-- What a format has no digits for is out of bounds. -/
def cutShort {α : Type} (y : Except Fault α) : Except Abort α :=
  y.mapError fun _ => .outOfBounds

theorem cutShort_bind {α β : Type} (y : Except Fault α) (g : α → Except Fault β) :
    cutShort (y >>= g) = cutShort y >>= fun a => cutShort (g a) := by
  cases y <;> rfl

theorem pointAt_one (cs : List Char) : pointAt cs 1 = cutShort (pointedDigits cs) := by
  cases cs with
  | nil => rfl
  | cons c cs => exact pointAt_eq (Nat.succ_le_succ (Nat.zero_le _))

/-! ## Digits

Each formatter stands here once more, with its cuts, differences and places checked. -/

def Decimal.roundToAt (d : Decimal) (count : Nat) : Except Abort Decimal := do
  let kept ← partAt d.digits 0 (min count d.digits.length)
  return if 5 ≤ d.digits.getD count 0 then
    match increment kept with
    | (ds, true) => ⟨(1 :: ds).dropLast, d.exponent + 1⟩
    | (ds, false) => ⟨ds, d.exponent⟩
  else ⟨kept, d.exponent⟩

theorem Decimal.roundToAt_eq (d : Decimal) (count : Nat) : d.roundToAt count = .ok (d.roundTo count) := by
  rw [roundToAt, partAt_zero (min_le_right _ _), ← List.take_eq_take_min]
  rfl

def significantDigitsAt (x : Float) (count : Nat) : Except Abort Decimal :=
  if x == 0 then .ok ⟨List.replicate (max count 1) 0, 0⟩
  else if x.isFinite then (Decimal.expand x (count + guardDigits + 1)).roundToAt count
  else Decimal.roundToAt ⟨[], 0⟩ count

theorem significantDigitsAt_eq (x : Float) (count : Nat) :
    significantDigitsAt x count = .ok (significantDigits x count) := by
  unfold significantDigitsAt significantDigits
  split
  · rfl
  · split
    · exact Decimal.roundToAt_eq _ count
    · rw [Decimal.roundToAt_eq, Decimal.roundTo, List.take_nil]
      rfl

def decimalPartsAt (x : Float) (precision : Nat) : Except Abort Decimal :=
  if precision = 0 then .ok (Decimal.shortest .up x) else significantDigitsAt x precision

theorem decimalPartsAt_eq (x : Float) (precision : Nat) :
    decimalPartsAt x precision = .ok (decimalParts x precision) := by
  unfold decimalPartsAt decimalParts
  split
  · rfl
  · exact significantDigitsAt_eq x precision

def numberCharsAt (x : Float) : Except Abort (List Char) := do
  return (← numberTextAt x).toList

theorem numberCharsAt_eq (x : Float) : numberCharsAt x = .ok (numberChars x) := by
  rw [numberCharsAt, numberTextAt_eq, numberText]
  exact congrArg Except.ok (String.toList_ofList)

/-! ## Layouts -/

/-- The digits of a number that is rounded to a fixed number of places. -/
def fixedPlaces (x : Float) (precision : Nat) : List Nat :=
  let (whole, frac) := fixedExpansion x (precision + guardDigits)
  let kept := whole ++ frac.take precision
  if 5 ≤ frac.getD precision 0 then
    match increment kept with
    | (ds, true) => 1 :: ds
    | (ds, false) => ds
  else kept

theorem length_snd_fixedExpansion (x : Float) (places : Nat) : (fixedExpansion x places).2.length = places := by
  unfold fixedExpansion
  dsimp only
  generalize digitsOf _ = ds
  rw [List.length_drop, List.length_append, List.length_replicate]
  omega

theorem le_length_fixedPlaces (x : Float) (precision : Nat) : precision ≤ (fixedPlaces x precision).length := by
  have hplaces := length_snd_fixedExpansion x (precision + guardDigits)
  unfold fixedPlaces
  generalize fixedExpansion x (precision + guardDigits) = expansion at hplaces
  have hkept : precision ≤ (expansion.1 ++ expansion.2.take precision).length := by
    rw [List.length_append, List.length_take, hplaces]
    omega
  dsimp only
  generalize expansion.1 ++ expansion.2.take precision = kept at hkept
  have hlength := length_increment kept
  split
  · split <;> rename_i ds h <;> rw [h] at hlength
    · exact hkept.trans (hlength ▸ Nat.le_succ _)
    · exact hkept.trans hlength.ge
  · exact hkept

theorem fixedDigits_eq (x : Float) (precision : Nat) :
    fixedDigits x precision =
      ((fixedPlaces x precision).take ((fixedPlaces x precision).length - precision),
        (fixedPlaces x precision).drop ((fixedPlaces x precision).length - precision)) := by
  unfold fixedDigits fixedPlaces
  rfl

/-- The text with a fixed number of places, cut where these begin. -/
def fixedCharsAt (x : Float) (precision : Nat) : Except Abort (List Char) := do
  if 1e21 ≤ x.abs || !x.isFinite then numberCharsAt x
  else
    let ds := fixedPlaces x precision
    let split ← differenceAt ds.length precision
    let body ← if precision = 0 then pure (digitChars ds) else pointAt (digitChars ds) split
    return if x < 0 && ds.any (· != 0) then '-' :: body else body

theorem fixedCharsAt_eq (x : Float) (precision : Nat) :
    fixedCharsAt x precision = .ok (fixedChars x precision) := by
  unfold fixedCharsAt fixedChars
  split
  · exact numberCharsAt_eq x
  · rw [fixedDigits_eq]
    have hplaces := le_length_fixedPlaces x precision
    generalize fixedPlaces x precision = ds at hplaces
    dsimp only
    rw [differenceAt_eq hplaces, ok_bind, List.take_append_drop]
    -- without places all digits stand in front of the cut
    split
    · rename_i hzero
      rw [hzero, Nat.sub_zero, List.take_length]
      rfl
    · rw [pointAt_eq (by rw [digitChars, List.length_map]; omega)]
      simp only [digitChars, List.map_take, List.map_drop]
      rfl

def exponentialCharsAt (x : Float) (precision : Nat) : Except Abort (List Char) := do
  let d ← significantDigitsAt x.abs (precision + 1)
  let ds := digitChars d.digits
  let mantissa ← if precision = 0 then pure ds else pointAt ds 1
  let body := mantissa ++ exponentChars d.exponent
  return if x < 0 then '-' :: body else body

theorem exponentialCharsAt_eq (x : Float) (precision : Nat) :
    exponentialCharsAt x precision = cutShort (exponentialChars x precision) := by
  rw [exponentialCharsAt, significantDigitsAt_eq, ok_bind, exponentialChars]
  dsimp only
  split
  · rfl
  · rw [pointAt_one, cutShort_bind]
    rfl

def precisionCharsAt (x : Float) (precision : Nat) : Except Abort (List Char) := do
  let precision := max precision 1
  let d ← significantDigitsAt x.abs precision
  let ds := digitChars d.digits
  let body ←
    if d.exponent < -6 ∨ (precision : Int) ≤ d.exponent then do
      let mantissa ← if precision = 1 then pure ds else pointAt ds 1
      pure (mantissa ++ exponentChars d.exponent)
    else if 0 ≤ d.exponent then do
      let point := (← countAt d.exponent) + 1
      if point < ds.length then pointAt ds point else pure ds
    else do
      pure ('0' :: '.' :: zeros (← countAt (-d.exponent - 1)) ++ ds)
  return if x < 0 then '-' :: body else body

theorem precisionCharsAt_eq (x : Float) (precision : Nat) :
    precisionCharsAt x precision = cutShort (precisionChars x precision) := by
  rw [precisionCharsAt]
  dsimp only
  rw [significantDigitsAt_eq, ok_bind, precisionChars]
  dsimp only
  generalize significantDigits x.abs (max precision 1) = d
  split
  · split
    · rfl
    · rw [pointAt_one, cutShort_bind]
      rfl
  · split
    · rename_i hexponent
      rw [countAt_eq hexponent, ok_bind]
      split
      · rename_i hpoint
        rw [pointAt_eq hpoint.le]
        rfl
      · rfl
    · rw [countAt_eq (by omega)]
      rfl

def Decimal.positionalCharsAt (d : Decimal) : Except Abort (List Char) := do
  let ds := digitChars d.digits
  if d.exponent < 0 then return '0' :: '.' :: zeros (← countAt (-d.exponent - 1)) ++ ds
  else
    let point := (← countAt d.exponent) + 1
    if point < ds.length then pointAt ds point
    else return ds ++ zeros (← differenceAt point ds.length)

theorem Decimal.positionalCharsAt_eq (d : Decimal) : d.positionalCharsAt = .ok d.positionalChars := by
  unfold positionalCharsAt positionalChars
  dsimp only
  split
  · rw [countAt_eq (by omega)]
    rfl
  · rw [countAt_eq (by omega), ok_bind]
    split
    · rename_i hpoint
      exact pointAt_eq hpoint.le
    · rw [differenceAt_eq (by omega)]
      rfl

def prefixedCharsAt (x : Float) (precision : Nat) : Except Abort (List Char × Int) := do
  let d ← decimalPartsAt x precision
  let ds := digitChars d.digits
  let unit := prefixExponent d.exponent
  let point := d.exponent - unit + 1
  let n : Int := ds.length
  let text ←
    if point = n then pure ds
    else if n < point then do pure (ds ++ zeros (← countAt (point - n)))
    else if 0 < point then do pointAt ds (← countAt point)
    else do
      let d ← decimalPartsAt x ((precision : Int) + point - 1).toNat
      pure ('0' :: '.' :: zeros (← countAt (-point)) ++ digitChars d.digits)
  return (text, unit)

theorem prefixedCharsAt_eq (x : Float) (precision : Nat) :
    prefixedCharsAt x precision = .ok (prefixedChars x precision) := by
  rw [prefixedCharsAt, decimalPartsAt_eq, ok_bind, prefixedChars]
  dsimp only
  split
  · rfl
  · split
    · rw [countAt_eq (by omega)]
      rfl
    · split
      · rw [countAt_eq (by omega), ok_bind, pointAt_eq (by omega)]
        rfl
      · rw [decimalPartsAt_eq, ok_bind, countAt_eq (by omega)]
        rfl

/-! ## Zeros at the end -/

/-- Scans a text from place `i` on. What may be dropped is from place `lo` to place `hi`; there is
nothing yet where `lo` is negative (before the point) or zero (behind another digit). -/
def trimScan (lo hi : Int) (i : Nat) : List Char → Int × Int
  | [] => (lo, hi)
  | c :: cs =>
    if c = '.' then trimScan i i (i + 1) cs
    else if c = '0' then trimScan (if lo = 0 then i else lo) i (i + 1) cs
    else if c.isDigit then trimScan (if 0 < lo then 0 else lo) hi (i + 1) cs
    else (lo, hi)

def dropScanned (cs : List Char) (found : Int × Int) : Except Abort (List Char) := do
  if 0 < found.1 then return (← partAt cs 0 (← countAt found.1)) ++ (← fromAt cs (← countAt (found.2 + 1)))
  else return cs

def trimAt (cs : List Char) : Except Abort (List Char) :=
  dropScanned cs (trimScan (-1) 0 1 (cs.drop 1))

/-- Where the characters begin that are held back behind `i` others. -/
def heldFrom (i : Nat) : Option (List Char) → Int
  | none => -1
  | some [] => 0
  | some (_ :: _) => i

theorem heldFrom_concat {i : Nat} (hi : 0 < i) (z : List Char) (c : Char) :
    heldFrom i (some (z ++ [c])) =
      if heldFrom i (some z) = 0 then ((i + z.length : Nat) : Int) else heldFrom i (some z) := by
  cases z with
  | nil => simp [heldFrom]
  | cons a z => simp [heldFrom, hi.ne']

theorem heldFrom_released {i : Nat} (hi : 0 < i) (z : List Char) :
    (if 0 < heldFrom i (some z) then 0 else heldFrom i (some z)) = 0 := by
  cases z with
  | nil => rfl
  | cons a z => simp [heldFrom, hi]

theorem dropScanned_held (front : List Char) (hfront : front ≠ []) (held : Option (List Char)) (hi : Int)
    (hhi : 0 < heldFrom front.length held → hi + 1 = (front ++ held.getD []).length) (cs : List Char) :
    dropScanned (front ++ held.getD [] ++ cs) (heldFrom front.length held, hi) = .ok (front ++ cs) := by
  match held, hhi with
  | none, _ | some [], _ => exact congrArg (fun cs' => Except.ok (cs' ++ cs)) (List.append_nil front)
  | some (c :: z), hhi =>
    have hpos : 0 < heldFrom front.length (some (c :: z)) :=
      Int.natCast_pos.mpr (List.length_pos_iff.mpr hfront)
    unfold dropScanned
    dsimp only
    rw [if_pos hpos, countAt_eq hpos.le, ok_bind, hhi hpos, countAt_eq (Int.natCast_nonneg _)]
    show (partAt _ 0 front.length >>= _) = _
    rw [partAt_zero (by simp), ok_bind, ok_bind, Int.toNat_natCast, fromAt_eq (by simp), List.drop_left,
      List.append_assoc, List.take_left]
    rfl

theorem dropScanned_trimScan (front : List Char) (hfront : front ≠ []) (held : Option (List Char))
    (hi : Int) (hhi : 0 < heldFrom front.length held → hi + 1 = (front ++ held.getD []).length)
    (cs : List Char) :
    dropScanned (front ++ held.getD [] ++ cs)
        (trimScan (heldFrom front.length held) hi (front ++ held.getD []).length cs) =
      .ok (front ++ trimZeros held cs) := by
  -- `front` is what stays of the text before `cs`, and `held` what a digit would keep
  induction cs generalizing front held hi with
  | nil =>
    rw [show trimZeros held [] = [] by rw [trimZeros.eq_def]]
    exact dropScanned_held front hfront held hi hhi []
  | cons c cs ih =>
    have hpos : 0 < front.length := List.length_pos_iff.mpr hfront
    rw [trimScan, trimZeros.eq_def]
    dsimp only
    split
    · -- the point is held back
      rename_i hpoint
      rw [hpoint]
      have h := ih (front ++ held.getD []) (by simp [hfront]) (some ['.'])
        ((front ++ held.getD []).length : Nat) (fun _ => by simp [Int.add_assoc])
      simpa [heldFrom, Nat.add_assoc] using h
    · split
      · -- a zero is held back with the others behind the point, and stays in front of it
        rename_i hzero
        rw [hzero]
        cases held with
        | none =>
          have h := ih (front ++ ['0']) (by simp) none (front.length : Nat) (fun h => by cases h)
          simpa [heldFrom, Nat.add_assoc] using h
        | some z =>
          have h := ih front hfront (some (z ++ ['0'])) ((front ++ z).length : Nat)
            (fun _ => by simp [Int.add_assoc])
          rw [heldFrom_concat hpos] at h
          simpa [Nat.add_assoc] using h
      · split
        · -- another digit keeps what was held back
          cases held with
          | none =>
            have h := ih (front ++ [c]) (by simp) none hi (fun h => by cases h)
            simpa [heldFrom, Nat.add_assoc] using h
          | some z =>
            have h := ih (front ++ z ++ [c]) (by simp) (some []) hi (fun h => by cases h)
            rw [heldFrom_released hpos]
            simpa [heldFrom, Nat.add_assoc] using h
        · exact dropScanned_held front hfront held hi hhi (c :: cs)

theorem trimAt_eq (cs : List Char) : trimAt cs = .ok (trimInsignificant cs) := by
  cases cs with
  | nil => rfl
  | cons c cs => exact dropScanned_trimScan [c] (List.cons_ne_nil c []) none 0 (fun h => by cases h) cs

/-! ## Groups -/

/-- The size of the next group, where those before it and their commas take `length` characters. -/
def groupSize (limit : Option Nat) (length : Nat) : Nat :=
  match limit with
  | none => 3
  | some w => if w < length + 3 + 1 then max (w - length) 1 else 3

theorem groupSize_pos (limit : Option Nat) (length : Nat) : 0 < groupSize limit length := by
  unfold groupSize
  split
  · omega
  · split <;> omega

/-- Whether groups go on behind `length` characters. -/
def groupsGoOn (limit : Option Nat) (length : Nat) : Bool :=
  match limit with
  | none => true
  | some w => length ≤ w

theorem groupsRev_eq (limit : Option Nat) (length : Nat) {rev : List Char} (hrev : rev ≠ []) :
    groupsRev limit length rev =
      (rev.take (groupSize limit length)).reverse ::
        if groupsGoOn limit (length + groupSize limit length + 1) then
          groupsRev limit (length + groupSize limit length + 1) (rev.drop (groupSize limit length))
        else [] := by
  cases rev with
  | nil => exact absurd rfl hrev
  | cons c cs =>
    have hdrop : (c :: cs).drop (groupSize limit length) = cs.drop (groupSize limit length - 1) := by
      obtain ⟨n, hn⟩ := Nat.exists_eq_succ_of_ne_zero (groupSize_pos limit length).ne'
      rw [hn]
      rfl
    rw [groupsRev.eq_def, hdrop]
    cases limit <;> rfl

/-- The groups of the first `i` characters of a text, last group first. -/
def groupsAt (limit : Option Nat) (cs : List Char) (length i : Nat) : Except Abort (List (List Char)) :=
  if i = 0 then .ok []
  else do
    let size := groupSize limit length
    let part ← partAt cs (i - size) i
    let next := length + size + 1
    return part :: (← if groupsGoOn limit next then groupsAt limit cs next (i - size) else pure [])
termination_by i
decreasing_by
  have := groupSize_pos limit length
  omega

theorem groupsAt_eq (limit : Option Nat) {cs : List Char} (length : Nat) {i : Nat} (hi : i ≤ cs.length) :
    groupsAt limit cs length i = .ok (groupsRev limit length (cs.take i).reverse) := by
  -- the groups are taken from the end, so that what is left is a shorter beginning of the text
  induction i using Nat.strong_induction_on generalizing length with
  | h i ih =>
    rw [groupsAt]
    split
    · rename_i hzero
      rw [hzero, List.take_zero, List.reverse_nil, groupsRev]
    · rename_i hpos
      have hlength : (cs.take i).length = i := List.length_take_of_le hi
      have hsize := groupSize_pos limit length
      have hrev : (cs.take i).reverse ≠ [] := fun h => by
        rw [← hlength, ← List.length_reverse, h] at hpos
        exact hpos rfl
      have hrest := ih (i - groupSize limit length) (by omega) (length + groupSize limit length + 1) (by omega)
      dsimp only
      rw [groupsRev_eq limit length hrev, partAt_eq (by omega) hi, ok_bind, List.take_reverse,
        List.drop_reverse, hlength, List.reverse_reverse, List.take_take, min_eq_left (by omega), hrest]
      split <;> rfl

def groupAt (limit : Option Nat) (cs : List Char) : Except Abort (List Char) := do
  return joinChars [','] (← groupsAt limit cs 0 cs.length).reverse

theorem groupAt_eq (limit : Option Nat) (cs : List Char) : groupAt limit cs = .ok (group limit cs) := by
  rw [groupAt, groupsAt_eq limit 0 le_rfl, List.take_length]
  rfl

/-! ## Formats -/

/-- The name of a thousands prefix, looked up in the table. -/
def thousandsPrefixAt (e : Int) : Except Abort String := do
  entryAt thousandsPrefixes (← countAt (8 + e / 3))

theorem thousandsPrefixAt_eq (e : Int) :
    thousandsPrefixAt (prefixExponent e) = .ok (thousandsPrefix (prefixExponent e)) := by
  unfold thousandsPrefixAt thousandsPrefix prefixExponent
  rw [countAt_eq (by omega), ok_bind, entryAt_eq_getD]
  show _ < 17
  omega

def NumberStyle.charsAt (style : NumberStyle) (x : Float) (precision : Nat) :
    Except Abort (List Char × Int) :=
  match style with
  | percent => do return (← fixedCharsAt (x * 100) precision, 0)
  | binary => pure (baseChars 2 false (toWord x), 0)
  | octal => pure (baseChars 8 false (toWord x), 0)
  | hexLower => pure (baseChars 16 false (toWord x), 0)
  | hexUpper => pure (baseChars 16 true (toWord x), 0)
  | integer => do return (← numberCharsAt (round x), 0)
  | exponent => do return (← exponentialCharsAt x precision, 0)
  | fixed => do return (← fixedCharsAt x precision, 0)
  | general => do return (← precisionCharsAt x precision, 0)
  | roundedPercent => do return (← (← decimalPartsAt (x * 100) precision).positionalCharsAt, 0)
  | rounded => do return (← (← decimalPartsAt x precision).positionalCharsAt, 0)
  | thousands => prefixedCharsAt x precision
  | character => do return (← numberCharsAt x, 0)

theorem NumberStyle.charsAt_eq (style : NumberStyle) (x : Float) (precision : Nat) :
    style.charsAt x precision = cutShort (style.chars x precision) := by
  cases style with
  | binary | octal | hexLower | hexUpper => rfl
  | percent | fixed => rw [charsAt, fixedCharsAt_eq]; rfl
  | integer | character => rw [charsAt, numberCharsAt_eq]; rfl
  | exponent => rw [charsAt, exponentialCharsAt_eq, chars, cutShort_bind]; rfl
  | general => rw [charsAt, precisionCharsAt_eq, chars, cutShort_bind]; rfl
  | roundedPercent | rounded => rw [charsAt, decimalPartsAt_eq, ok_bind, Decimal.positionalCharsAt_eq]; rfl
  | thousands => exact prefixedCharsAt_eq x precision

namespace NumberFormat

/-- The text cut at its first character that is no digit. -/
def splitAt (text : List Char) : Except Abort (List Char × List Char) :=
  match text.findIdx? (fun c => !c.isDigit) with
  | some i => do return (← partAt text 0 i, ← fromAt text i)
  | none => .ok (text, [])

theorem splitAt_eq (text : List Char) :
    splitAt text = .ok (text.takeWhile Char.isDigit, text.drop (text.takeWhile Char.isDigit).length) := by
  unfold splitAt
  cases hfound : text.findIdx? (fun c => !c.isDigit) with
  | none =>
    have hall : text.takeWhile Char.isDigit = text := by
      refine List.takeWhile_eq_self_iff.2 fun c hc => ?_
      simpa using List.findIdx?_eq_none_iff.1 hfound c hc
    dsimp only
    rw [hall, List.drop_length]
  | some i =>
    obtain ⟨hi, hplace⟩ := List.findIdx?_eq_some_iff_findIdx_eq.1 hfound
    have htake : text.takeWhile Char.isDigit = text.take i := by
      rw [List.takeWhile_eq_take_findIdx_not, hplace]
    dsimp only
    rw [htake, List.length_take_of_le hi.le, partAt_zero hi.le, fromAt_eq hi.le]
    rfl

def cutAt (fmt : NumberFormat) (x : Float) (written : List Char × Int) : Except Abort Pieces := do
  let text ← (if fmt.spec.trim then trimAt written.1 else .ok written.1)
  let negative := (x < 0 || (x == 0 && signBit x)) && !(readsZero text && fmt.spec.sign != .plus)
  let unit ← (if fmt.style == .thousands then (thousandsPrefixAt written.2).map String.toList else .ok [])
  let close := if negative && fmt.spec.sign == .parens then [')'] else []
  let (body, rest) ← (if fmt.style.splitsSuffix then splitAt text else .ok (text, []))
  return { lead := signChars fmt.spec.sign negative ++ fmt.lead.toList
           body
           tail := rest ++ (unit ++ fmt.tail.toList ++ close) }

theorem cutAt_eq {fmt : NumberFormat} {x : Float} {written : List Char × Int}
    (hunit : fmt.style = .thousands → ∃ e, written.2 = prefixExponent e) :
    fmt.cutAt x written = .ok (fmt.cut x written) := by
  have htext : (if fmt.spec.trim then trimAt written.1 else .ok written.1) =
      .ok (if fmt.spec.trim then trimInsignificant written.1 else written.1) := by
    split
    · exact trimAt_eq written.1
    · rfl
  have hname : (if fmt.style == .thousands then (thousandsPrefixAt written.2).map String.toList else .ok []) =
      .ok (if fmt.style == .thousands then (thousandsPrefix written.2).toList else []) := by
    split
    · rename_i hthousands
      obtain ⟨e, he⟩ := hunit (eq_of_beq hthousands)
      rw [he, thousandsPrefixAt_eq]
      rfl
    · rfl
  have hsplit (text : List Char) : (if fmt.style.splitsSuffix then splitAt text else .ok (text, [])) =
      .ok (fmt.style.whole text, text.drop (fmt.style.whole text).length) := by
    unfold NumberStyle.whole
    split
    · exact splitAt_eq text
    · rw [List.drop_length]
  rw [cutAt, htext, ok_bind, hname, ok_bind, hsplit]
  rfl

def piecesAt (fmt : NumberFormat) (x : Float) : Except Abort Pieces := do
  if fmt.style = .character then
    return { lead := fmt.lead.toList, body := [], tail := (← numberCharsAt x) ++ fmt.tail.toList }
  else
    let written ← if x.isNaN then pure ("NaN".toList, 0) else fmt.style.charsAt x.abs fmt.precision
    fmt.cutAt x written

theorem piecesAt_eq (fmt : NumberFormat) (x : Float) : fmt.piecesAt x = cutShort (fmt.pieces x) := by
  rw [pieces_eq]
  unfold piecesAt
  split
  · rw [numberCharsAt_eq]
    rfl
  · split
    · exact cutAt_eq fun _ => ⟨0, rfl⟩
    · rw [NumberStyle.charsAt_eq]
      cases hwritten : fmt.style.chars x.abs fmt.precision with
      | error f => rfl
      | ok written =>
        -- only prefixes that are in use are looked up
        refine cutAt_eq fun hthousands => ?_
        rw [hthousands] at hwritten
        cases hwritten
        exact ⟨_, rfl⟩

def assembleAt (spec : FormatSpec) (p : Pieces) : Except Abort (List Char) := do
  let body ← (if spec.comma && !spec.zero then groupAt none p.body else .ok p.body)
  let width := spec.width.getD 0
  let length := p.lead.length + body.length + p.tail.length
  let missing ← (if length < width then differenceAt width length else .ok 0)
  let padding := List.replicate missing spec.fill
  let (body, padding) ←
    (if spec.comma && spec.zero then
      let limit := if padding.isEmpty then none else some (width - p.tail.length)
      (groupAt limit (padding ++ body)).map fun body => (body, [])
    else .ok (body, padding))
  return match spec.align with
  | .left => p.lead ++ body ++ p.tail ++ padding
  | .afterSign => p.lead ++ padding ++ body ++ p.tail
  | .center =>
    let half := padding.length / 2
    padding.take half ++ p.lead ++ body ++ p.tail ++ padding.drop half
  | .right => padding ++ p.lead ++ body ++ p.tail

theorem assembleAt_eq (spec : FormatSpec) (p : Pieces) : assembleAt spec p = .ok (assemble spec p) := by
  have hbody : (if spec.comma && !spec.zero then groupAt none p.body else .ok p.body) =
      .ok (if spec.comma && !spec.zero then group none p.body else p.body) := by
    split
    · exact groupAt_eq none p.body
    · rfl
  have hmissing (width length : Nat) :
      (if length < width then differenceAt width length else .ok 0) = .ok (width - length) := by
    split
    · exact differenceAt_eq (by omega)
    · rw [Nat.sub_eq_zero_of_le (by omega)]
  unfold assembleAt assemble
  rw [hbody, ok_bind]
  dsimp only
  rw [hmissing, ok_bind]
  split
  · rw [groupAt_eq]
    rfl
  · rfl

def formatAt (fmt : NumberFormat) (x : Float) : Except Abort String := do
  let text ← assembleAt fmt.spec (← fmt.piecesAt (fmt.scaled x))
  return String.ofList (text ++ fmt.unitChars)

theorem formatAt_eq (fmt : NumberFormat) (x : Float) : fmt.formatAt x = cutShort (fmt.format x) := by
  rw [formatAt, piecesAt_eq, format_eq]
  simp only [assembleAt_eq]
  cases fmt.pieces (fmt.scaled x) <;> rfl

/-- A fixed-place format in units of the thousands prefix of `reference`, with its name looked up. -/
def withThousandsAt (spec : FormatSpec) (reference : Float) : Except Abort NumberFormat := do
  let e := prefixExponent (exponentOf reference)
  let name ← thousandsPrefixAt e
  return { ofSpec { spec with kind := some 'f' } with unit := some (powInt 10 (-e), name) }

theorem withThousandsAt_eq (spec : FormatSpec) (reference : Float) :
    withThousandsAt spec reference = .ok (withThousands spec reference) := by
  unfold withThousandsAt
  dsimp only
  rw [thousandsPrefixAt_eq]
  rfl

/-- **Numbers are formatted** within the bounds of all texts, digits and tables, in units that are fixed
and with every specifier, but for infinite numbers that are to have a point in their exponential
form. -/
theorem formatAt_ofSpec_iff (spec : FormatSpec) (reference x : Float) :
    (∃ text, (withThousandsAt spec reference >>= fun fmt => fmt.formatAt x) = .ok text ∧
      (withThousands spec reference).format x = .ok text) ∧
    (ofSpec spec).formatAt x = cutShort ((ofSpec spec).format x) ∧
    ((∃ text, (ofSpec spec).formatAt x = .ok text) ↔
      ¬ (spec.kind = some 'e' ∧ spec.precision ≠ some 0 ∧ x.isInf = true)) := by
  refine ⟨?_, formatAt_eq _ x, ?_⟩
  · obtain ⟨text, htext⟩ := (exists_format_iff _ x).2 (not_cutOff_withThousands spec reference x)
    refine ⟨text, ?_, htext⟩
    rw [withThousandsAt_eq, ok_bind, formatAt_eq, htext]
    rfl
  · rw [← cutOff_ofSpec_iff, ← exists_format_iff, formatAt_eq]
    cases (ofSpec spec).format x with
    | ok text => exact iff_of_true ⟨text, rfl⟩ ⟨text, rfl⟩
    | error f => exact iff_of_false (fun ⟨_, h⟩ => by cases h) fun ⟨_, h⟩ => by cases h

/-- An infinite number has no exponential form. -/
theorem format_infinity :
    FormatSpec.parse "e" = .ok { kind := some 'e' } ∧
    (ofSpec { kind := some 'e' }).formatAt infinity = .error .outOfBounds ∧
    (ofSpec { kind := some 'e' }).format infinity = .error .noDigits := by
  decide +kernel

end NumberFormat

end ChartTemplate
