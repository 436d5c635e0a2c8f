import ChartTemplate.Proofs.Json.Numeral
import ChartTemplate.Numeric.Read
import Mathlib.Tactic.Ring
import Mathlib.Tactic.Linarith

/-!
# The numbers that digits spell

Digits that follow each other spell the sum of what they spell, with the first shifted
(`ofDigits_append`). The digits that are written for a number spell it (`natOfChars_natChars`), and
dropped zeros are made up for by a power of ten (`ofDigits_stripZeros`).
-/

namespace ChartTemplate

open Json.Read (Digits)

/-! ## Digits that follow each other -/

theorem foldl_ofDigits (n : Nat) (ds : List Nat) :
    ds.foldl (fun n d => 10 * n + d) n = n * 10 ^ ds.length + ofDigits ds := by
  induction ds generalizing n with
  | nil => simp [ofDigits]
  | cons d ds ih =>
    rw [ofDigits, List.foldl_cons, List.foldl_cons, ih, ih (10 * 0 + d), List.length_cons, pow_succ]
    ring

theorem ofDigits_append (ds ds' : List Nat) :
    ofDigits (ds ++ ds') = ofDigits ds * 10 ^ ds'.length + ofDigits ds' := by
  rw [ofDigits, List.foldl_append, foldl_ofDigits (List.foldl _ 0 ds)]
  rfl

theorem ofDigits_cons (d : Nat) (ds : List Nat) : ofDigits (d :: ds) = d * 10 ^ ds.length + ofDigits ds := by
  rw [← List.singleton_append, ofDigits_append]
  simp [ofDigits]

theorem ofDigits_lt {ds : List Nat} (h : ∀ d ∈ ds, d < 10) : ofDigits ds < 10 ^ ds.length := by
  induction ds with
  | nil => exact Nat.one_pos
  | cons d ds ih =>
    obtain ⟨hd, hds⟩ := List.forall_mem_cons.1 h
    have hle : (d + 1) * 10 ^ ds.length ≤ 10 * 10 ^ ds.length := Nat.mul_le_mul_right _ hd
    have hlt := ih hds
    rw [ofDigits_cons, List.length_cons, pow_succ]
    linarith

theorem natOfChars_cons (c : Char) (cs : List Char) :
    natOfChars (c :: cs) = digitValue c * 10 ^ cs.length + natOfChars cs := by
  rw [natOfChars, List.map_cons, ofDigits_cons, List.length_map]
  rfl

theorem natOfChars_zeros_append (k : Nat) (cs : List Char) : natOfChars (zeros k ++ cs) = natOfChars cs := by
  induction k with
  | zero => rfl
  | succ k ih =>
    have hzero : digitValue '0' = 0 := rfl
    rw [zeros, List.replicate_succ, List.cons_append, natOfChars_cons, hzero, Nat.zero_mul, Nat.zero_add]
    exact ih

theorem Json.Read.isDigit_toNat {c : Char} (h : c.isDigit = true) : 48 ≤ c.toNat ∧ c.toNat ≤ 57 := by
  simpa [Char.isDigit, UInt32.le_iff_toNat_le] using h

theorem digitValue_lt {c : Char} (h : c.isDigit = true) : digitValue c < 10 := by
  have := Json.Read.isDigit_toNat h
  rw [digitValue]
  omega

theorem natOfChars_lt {cs : List Char} (h : Digits cs) : natOfChars cs < 10 ^ cs.length := by
  have hdigits : ∀ d ∈ cs.map digitValue, d < 10 := by
    intro d hd
    obtain ⟨c, hc, rfl⟩ := List.mem_map.1 hd
    exact digitValue_lt (h c hc)
  have hlt := ofDigits_lt hdigits
  rwa [List.length_map] at hlt

/-! ## Digits that are written -/

theorem digitValue_digitChar {d : Nat} (h : d < 10) : digitValue (digitChar d) = d :=
  (show ∀ d < 10, digitValue (digitChar d) = d by decide) d h

theorem natOfChars_digitChars {ds : List Nat} (h : ∀ d ∈ ds, d < 10) :
    natOfChars (digitChars ds) = ofDigits ds := by
  rw [natOfChars, digitChars, List.map_map]
  congr 1
  exact (List.map_congr_left fun d hd => digitValue_digitChar (h d hd)).trans (List.map_id _)

theorem ofDigits_reverse_digitsRev (n : Nat) : ofDigits (digitsRev n).reverse = n := by
  rw [ofDigits, List.foldl_reverse]
  fun_induction digitsRev n with
  | case1 => rfl
  | case2 n hn ih =>
    rw [List.foldr_cons, ih]
    omega

theorem natOfChars_natChars (n : Nat) : natOfChars (natChars n) = n := by
  rw [natChars, natOfChars_digitChars fun d hd => Json.lt_ten_of_mem_digitsOf hd, digitsOf]
  split
  · rename_i hn
    rw [hn]
    rfl
  · exact ofDigits_reverse_digitsRev n

theorem natChars_injective : Function.Injective natChars :=
  Function.LeftInverse.injective natOfChars_natChars

theorem ofDigits_stripZeros (ds : List Nat) :
    ∃ k, ds.length = (stripZeros ds).length + k ∧
      ofDigits ds.reverse = ofDigits (stripZeros ds).reverse * 10 ^ k := by
  fun_induction stripZeros ds with
  | case1 ds ih =>
    obtain ⟨k, hlength, hvalue⟩ := ih
    refine ⟨k + 1, by rw [List.length_cons, hlength]; rfl, ?_⟩
    rw [List.reverse_cons, ofDigits_append, hvalue, pow_succ, ← mul_assoc]
    rfl
  | case2 ds => exact ⟨0, rfl, (Nat.mul_one _).symm⟩

theorem getLast?_digitsRev (n : Nat) : (digitsRev n).getLast? ≠ some 0 := by
  fun_induction digitsRev n with
  | case1 => simp
  | case2 n hn ih =>
    cases hrest : digitsRev (n / 10) with
    | nil =>
      have hlt : n / 10 = 0 := by
        by_contra hne
        rw [digitsRev, if_neg hne] at hrest
        exact List.cons_ne_nil _ _ hrest
      rw [List.getLast?_singleton]
      intro h
      have := Option.some.inj h
      omega
    | cons d ds =>
      rw [List.getLast?_cons_cons, ← hrest]
      exact ih

theorem getLast?_stripZeros {ds : List Nat} (h : ds.getLast? ≠ some 0) :
    (stripZeros ds).getLast? = ds.getLast? := by
  fun_induction stripZeros ds with
  | case1 ds ih =>
    cases ds with
    | nil => exact absurd rfl h
    | cons d ds =>
      rw [List.getLast?_cons_cons] at h ⊢
      exact ih h
  | case2 => rfl

end ChartTemplate
