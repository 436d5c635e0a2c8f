import ChartTemplate.Proofs.Format.Grouping
import ChartTemplate.Proofs.Json.Digits
import Mathlib.Data.List.Induction
import Mathlib.Tactic.FieldSimp

/-!
# Trimmed numerals

A numeral is digits, perhaps a point with more of them, and perhaps an exponent. From the point on the scan
holds back what it has not decided on: the point and the zeros behind the last digit other than zero. What
is held back is given out when another such digit comes (`trimZeros_significant`) and is dropped where the
fraction ends (`trimZeros_some_tail`). So exactly the zeros at the end of the fraction go, and the point with
them if nothing is left of it, and the number stays the same (`trimInsignificant_numeral`).
-/

namespace ChartTemplate

open Json.Read (Digits)

/-! ## Numerals -/

/-- Digits, at least one. -/
structure Figures where
  chars : List Char
  ne_nil : chars ≠ []
  digits : Digits chars

/-- The exponent of a numeral, with its sign. -/
structure Power where
  negative : Bool
  figures : Figures

def Power.chars (p : Power) : List Char :=
  'e' :: (if p.negative then '-' else '+') :: p.figures.chars

def Power.value (p : Power) : ℤ :=
  if p.negative then -natOfChars p.figures.chars else natOfChars p.figures.chars

structure DecimalNumeral where
  whole : Figures
  fraction : Option Figures
  power : Option Power

namespace DecimalNumeral

/-- What follows the whole part and the fraction. -/
def tail (n : DecimalNumeral) : List Char :=
  (n.power.map Power.chars).getD []

def fractionPart (n : DecimalNumeral) : List Char :=
  (n.fraction.map fun f => '.' :: f.chars).getD []

def chars (n : DecimalNumeral) : List Char :=
  n.whole.chars ++ n.fractionPart ++ n.tail

def value (n : DecimalNumeral) : ℚ :=
  let places := (n.fraction.map Figures.chars).getD []
  natOfChars (n.whole.chars ++ places) * 10 ^ ((n.power.map Power.value).getD 0 - places.length)

end DecimalNumeral

/-! ## The scan -/

section scan

variable {ds tail : List Char}

theorem point_not_mem (h : Digits ds) : '.' ∉ ds := fun hmem => by cases h _ hmem

theorem trimZeros_whole (h : Digits ds) (cs : List Char) :
    trimZeros none (ds ++ '.' :: cs) = ds ++ trimZeros (some ['.']) cs := by
  induction ds with
  | nil => simp [trimZeros]
  | cons d ds ih =>
    obtain ⟨hd, hds⟩ := List.forall_mem_cons.1 h
    have hpoint : d ≠ '.' := fun heq => by rw [heq] at hd; cases hd
    simp [trimZeros, hpoint, hd, ih hds]

theorem trimZeros_zeros (held : List Char) (k : Nat) (cs : List Char) :
    trimZeros (some held) (zeros k ++ cs) = trimZeros (some (held ++ zeros k)) cs := by
  induction k generalizing held with
  | zero => simp [zeros]
  | succ k ih =>
    have hzeros : zeros (k + 1) = '0' :: zeros k := rfl
    rw [hzeros, List.cons_append, trimZeros, if_neg (by decide), if_pos rfl]
    simp [ih]

theorem trimZeros_significant (h : Digits ds) (hne : ds ≠ []) (hlast : ds.getLast? ≠ some '0')
    (held cs : List Char) :
    trimZeros (some held) (ds ++ cs) = held ++ ds ++ trimZeros (some []) cs := by
  induction ds generalizing held with
  | nil => exact absurd rfl hne
  | cons d ds ih =>
    obtain ⟨hd, hds⟩ := List.forall_mem_cons.1 h
    have hpoint : d ≠ '.' := fun heq => by rw [heq] at hd; cases hd
    rw [List.cons_append, trimZeros, if_neg hpoint]
    by_cases hnil : ds = []
    · subst hnil
      have hzero : d ≠ '0' := by simpa using hlast
      simp [hzero, hd]
    · rw [List.getLast?_cons_of_ne_nil hnil] at hlast
      by_cases hzero : d = '0'
      · simp [hzero, ih hds hnil hlast]
      · simp [hzero, hd, ih hds hnil hlast]

theorem trimZeros_some_tail (held : List Char) (p : Option Power) :
    trimZeros (some held) ((p.map Power.chars).getD []) = (p.map Power.chars).getD [] := by
  cases p with
  | none => rfl
  | some p => simp [Power.chars, trimZeros, show ('e').isDigit = false from rfl]

end scan

theorem exists_significant (ds : List Char) :
    ∃ sig k, ds = sig ++ zeros k ∧ sig.getLast? ≠ some '0' := by
  induction ds using List.reverseRecOn with
  | nil => exact ⟨[], 0, rfl, by simp⟩
  | append_singleton ds d ih =>
    by_cases hzero : d = '0'
    · obtain ⟨sig, k, rfl, hlast⟩ := ih
      refine ⟨sig, k + 1, ?_, hlast⟩
      rw [hzero, List.append_assoc, zeros, zeros, List.replicate_succ']
    · exact ⟨ds ++ [d], 0, by simp [zeros], by simpa using hzero⟩

theorem natOfChars_append_zeros (cs : List Char) (k : Nat) :
    natOfChars (cs ++ zeros k) = natOfChars cs * 10 ^ k := by
  have hzeros : ∀ k, ofDigits (List.replicate k 0) = 0 := by
    intro k
    induction k with
    | zero => rfl
    | succ k ih => rw [List.replicate_succ, ofDigits_cons, ih, Nat.zero_mul]
  have hmap : (zeros k).map digitValue = List.replicate k 0 := List.map_replicate
  rw [natOfChars, List.map_append, ofDigits_append, hmap, hzeros, List.length_replicate]
  rfl

/-! ## Trimming -/

namespace DecimalNumeral

variable {n m : DecimalNumeral}

theorem value_eq_of_places {k : Nat} (hwhole : m.whole = n.whole) (hpower : m.power = n.power)
    (hplaces : (n.fraction.map Figures.chars).getD [] = (m.fraction.map Figures.chars).getD [] ++ zeros k) :
    m.value = n.value := by
  simp only [value]
  rw [hwhole, hpower, hplaces]
  generalize (m.fraction.map Figures.chars).getD [] = places
  generalize (n.power.map Power.value).getD 0 = e
  have hexp : e - (places ++ zeros k).length = e - places.length - k := by
    simp [zeros]
    omega
  rw [← List.append_assoc, natOfChars_append_zeros, hexp, zpow_sub₀ (by norm_num) _ (k : ℤ), zpow_natCast]
  push_cast
  field_simp

theorem point_not_mem_chars (h : n.fraction = none) : '.' ∉ n.chars := by
  have htail : '.' ∉ n.tail := by
    unfold tail
    cases n.power with
    | none => simp
    | some p =>
      cases hneg : p.negative <;> simp [Power.chars, hneg, point_not_mem p.figures.digits]
  simp [chars, fractionPart, h, htail, point_not_mem n.whole.digits]

theorem trimInsignificant_chars {f : Figures} (h : n.fraction = some f) :
    trimInsignificant n.chars = n.whole.chars ++ trimZeros (some ['.']) (f.chars ++ n.tail) := by
  have hwhole := n.whole.digits
  have hne := n.whole.ne_nil
  rw [chars, fractionPart, h]
  cases hchars : n.whole.chars with
  | nil => exact absurd hchars hne
  | cons c cs =>
    rw [hchars] at hwhole
    simp [trimInsignificant, trimZeros_whole (List.forall_mem_cons.1 hwhole).2]

end DecimalNumeral

/-- Trimming gives a numeral of the same number that differs from the given one in its fraction alone. -/
theorem trimInsignificant_numeral :
    (∀ n : DecimalNumeral, ∃ m : DecimalNumeral, trimInsignificant n.chars = m.chars ∧
      m.value = n.value ∧ m.whole = n.whole ∧ m.power = n.power ∧
      (∀ f, m.fraction = some f → f.chars ≠ [] ∧ f.chars.getLast? ≠ some '0') ∧
      (n.fraction = none → m = n)) ∧
    ∀ cs : List Char, '.' ∉ cs → trimInsignificant cs = cs := by
  refine ⟨fun n => ?_, fun cs => trimInsignificant_of_not_mem⟩
  cases hfraction : n.fraction with
  | none =>
    refine ⟨n, trimInsignificant_of_not_mem (n.point_not_mem_chars hfraction), rfl, rfl, rfl, ?_, fun _ => rfl⟩
    intro f hf
    rw [hfraction] at hf
    cases hf
  | some f =>
    obtain ⟨sig, k, hf, hlast⟩ := exists_significant f.chars
    have hdigits : Digits sig := fun c hc => f.digits c (hf ▸ List.mem_append_left _ hc)
    have hchars := n.trimInsignificant_chars hfraction
    by_cases hsig : sig = []
    · -- nothing is left of the fraction
      refine ⟨{ n with fraction := none }, ?_, ?_, rfl, rfl, by simp, by simp⟩
      · rw [hchars, hf, hsig, List.nil_append, trimZeros_zeros, DecimalNumeral.tail, trimZeros_some_tail]
        simp [DecimalNumeral.chars, DecimalNumeral.fractionPart, DecimalNumeral.tail]
      · exact DecimalNumeral.value_eq_of_places (k := k) rfl rfl (by simp [hfraction, hf, hsig])
    · refine ⟨{ n with fraction := some ⟨sig, hsig, hdigits⟩ }, ?_, ?_, rfl, rfl, ?_, by simp⟩
      · rw [hchars, hf, List.append_assoc, trimZeros_significant hdigits hsig hlast, trimZeros_zeros,
          DecimalNumeral.tail, trimZeros_some_tail]
        simp [DecimalNumeral.chars, DecimalNumeral.fractionPart, DecimalNumeral.tail]
      · exact DecimalNumeral.value_eq_of_places (k := k) rfl rfl (by simp [hfraction, hf])
      · intro g hg
        cases hg
        exact ⟨hsig, hlast⟩

example : trimInsignificant "120.0500e+10".toList = "120.05e+10".toList := by decide

end ChartTemplate
