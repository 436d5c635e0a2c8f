import ChartTemplate.Json.Parser
import ChartTemplate.Json.Printer
import Mathlib.Data.List.TakeWhile

/-!
# Numbers among other tokens

Reading a number takes what follows it into account only as far as it could go on with it: before a
token that ends a value, a number is read as it is alone (`number?_append`). What is read begins with a
minus sign or a digit and holds nothing but characters of numerals (`takes_number?`). The text that is
written for a number is a numeral, which is read as a whole or not at all (`number?_numberChars`).
-/

namespace ChartTemplate.Json

namespace Read

/-! ## What follows a number -/

/-- The characters that may follow a value: tokens that end it, and blanks. -/
def enders : List Char := [',', ']', '}', ' ', '\n', '\t', '\r']

/-- Nothing follows, or a token or blank that ends a value. -/
def EndsValue (rest : List Char) : Prop :=
  ∀ c r, rest = c :: r → c ∈ enders

theorem endsValue_nil : EndsValue [] := fun _ _ h => nomatch h

theorem endsValue_cons {c : Char} (r : List Char) (h : c ∈ enders) : EndsValue (c :: r) :=
  fun _ _ hc => (List.cons.inj hc).1 ▸ h

theorem not_numeral_of_mem_enders : ∀ c ∈ enders, c.isDigit = false ∧ c ≠ '+' ∧ c ≠ '-' ∧
    c ≠ '.' ∧ c ≠ 'e' ∧ c ≠ 'E' := by
  simp [enders]

variable {rest : List Char}

theorem EndsValue.not_numeral {c : Char} {r : List Char} (h : EndsValue (c :: r)) :
    c.isDigit = false ∧ c ≠ '+' ∧ c ≠ '-' ∧ c ≠ '.' ∧ c ≠ 'e' ∧ c ≠ 'E' :=
  not_numeral_of_mem_enders c (h c r rfl)

theorem EndsValue.isDigit {c : Char} {r : List Char} (h : EndsValue (c :: r)) :
    c.isDigit = false :=
  h.not_numeral.1

theorem takeWhile_append (h : EndsValue rest) (cs : List Char) :
    (cs ++ rest).takeWhile Char.isDigit = cs.takeWhile Char.isDigit := by
  induction cs with
  | nil =>
    cases rest with
    | nil => rfl
    | cons c r => simp [h.isDigit]
  | cons c cs ih => simp only [List.cons_append, List.takeWhile_cons, ih]

theorem dropWhile_append (h : EndsValue rest) (cs : List Char) :
    (cs ++ rest).dropWhile Char.isDigit = cs.dropWhile Char.isDigit ++ rest := by
  induction cs with
  | nil =>
    cases rest with
    | nil => rfl
    | cons c r => simp [h.isDigit]
  | cons c cs ih =>
    rw [List.cons_append, List.dropWhile_cons, List.dropWhile_cons, ih]
    split <;> rfl

theorem significand_append (h : EndsValue rest) (n : Nat) (cs : List Char) :
    significand n (cs ++ rest) =
      ((significand n cs).1, (significand n cs).2.1, (significand n cs).2.2 ++ rest) := by
  induction cs generalizing n with
  | nil =>
    cases rest with
    | nil => rfl
    | cons c r => simp [significand, h.isDigit]
  | cons c cs ih =>
    rw [List.cons_append, significand, significand]
    split
    · dsimp only
      split
      · rfl
      · rw [ih]
    · rfl

theorem exponentSign_of_no_sign {c : Char} (hc : c ≠ '+' ∧ c ≠ '-') (r : List Char) :
    exponentSign (c :: r) = (false, c :: r) := by
  unfold exponentSign
  split <;> simp_all

theorem exponentSign_append (h : EndsValue rest) (cs : List Char) :
    exponentSign (cs ++ rest) = ((exponentSign cs).1, (exponentSign cs).2 ++ rest) := by
  cases cs with
  | nil =>
    cases rest with
    | nil => rfl
    | cons c r => exact exponentSign_of_no_sign ⟨h.not_numeral.2.1, h.not_numeral.2.2.1⟩ r
  | cons c cs =>
    by_cases hplus : c = '+'
    · subst hplus; rfl
    · by_cases hminus : c = '-'
      · subst hminus; rfl
      · rw [List.cons_append, exponentSign_of_no_sign ⟨hplus, hminus⟩,
          exponentSign_of_no_sign ⟨hplus, hminus⟩, List.cons_append]

theorem exponent?_append (h : EndsValue rest) (mant : Nat) (e : Int) (cs : List Char) :
    exponent? mant e (cs ++ rest) = (exponent? mant e cs).map fun p => (p.1, p.2 ++ rest) := by
  simp only [exponent?, exponentSign_append h, takeWhile_append h, dropWhile_append h,
    Option.map_map, Function.comp_def]

theorem scaledNumber?_of_no_mark {cs : List Char}
    (hcs : ∀ c r, cs = c :: r → c ≠ 'e' ∧ c ≠ 'E') (mant : Nat) (e : Int) :
    scaledNumber? mant e cs = (scaleByTen? mant.toUInt64.toFloat e).map (·, cs) := by
  unfold scaledNumber?
  split
  · exact absurd rfl (hcs _ _ rfl).1
  · exact absurd rfl (hcs _ _ rfl).2
  · rfl

theorem scaledNumber?_append (h : EndsValue rest) (mant : Nat) (e : Int) (cs : List Char) :
    scaledNumber? mant e (cs ++ rest) =
      (scaledNumber? mant e cs).map fun p => (p.1, p.2 ++ rest) := by
  cases cs with
  | nil =>
    have hrest (c : Char) (r : List Char) (hc : rest = c :: r) : c ≠ 'e' ∧ c ≠ 'E' :=
      (not_numeral_of_mem_enders c (h c r hc)).2.2.2.2
    have hnil (c : Char) (r : List Char) (hc : [] = c :: r) : c ≠ 'e' ∧ c ≠ 'E' := nomatch hc
    rw [List.nil_append, scaledNumber?_of_no_mark hrest, scaledNumber?_of_no_mark hnil,
      Option.map_map]
    rfl
  | cons c cs =>
    by_cases hmark : c = 'e' ∨ c = 'E'
    · rcases hmark with rfl | rfl <;> exact exponent?_append h mant e cs
    · have hno (r : List Char) (c' : Char) (r' : List Char) (hc : c :: r = c' :: r') :
          c' ≠ 'e' ∧ c' ≠ 'E' := (List.cons.inj hc).1 ▸ not_or.1 hmark
      rw [List.cons_append, scaledNumber?_of_no_mark (hno _), scaledNumber?_of_no_mark (hno _),
        Option.map_map]
      rfl

theorem fraction?_append (h : EndsValue rest) (mant : Nat) (e : Int) (cs : List Char) :
    fraction? mant e (cs ++ rest) = (fraction? mant e cs).map fun p => (p.1, p.2 ++ rest) := by
  simp only [fraction?, significand_append h, takeWhile_append h, dropWhile_append h,
    scaledNumber?_append h]
  split <;> rfl

theorem wholePart_append (h : EndsValue rest) (c : Char) (cs : List Char) :
    wholePart c (cs ++ rest) =
      ((wholePart c cs).1, (wholePart c cs).2.1, (wholePart c cs).2.2 ++ rest) := by
  unfold wholePart
  split
  · rfl
  · rw [← List.cons_append, significand_append h]
    simp only [takeWhile_append h, dropWhile_append h]

theorem afterWhole?_append (h : EndsValue rest) (n dropped : Nat) (cs : List Char) :
    afterWhole? n dropped (cs ++ rest) =
      (afterWhole? n dropped cs).map fun p => (p.1, p.2 ++ rest) := by
  have hother {c : Char} (r : List Char) (hc : c ≠ '.' ∧ c ≠ 'e' ∧ c ≠ 'E') :
      afterWhole? n dropped (c :: r) =
        if c.isDigit then none else (wholeNumber? n dropped).map (·, c :: r) := by
    unfold afterWhole?
    split <;> simp_all
  cases cs with
  | nil =>
    cases rest with
    | nil => simp
    | cons c r =>
      rw [List.nil_append, hother r h.not_numeral.2.2.2, h.isDigit, afterWhole?, Option.map_map]
      rfl
  | cons c cs =>
    by_cases hpoint : c = '.'
    · subst hpoint
      simp only [List.cons_append, afterWhole?, fraction?_append h, Option.map_map,
        Function.comp_def]
    · by_cases hmark : c = 'e' ∨ c = 'E'
      · rcases hmark with rfl | rfl <;>
          simp only [List.cons_append, afterWhole?, exponent?_append h, Option.map_map,
            Function.comp_def]
      · have hc := And.intro hpoint (not_or.1 hmark)
        rw [List.cons_append, hother _ hc, hother _ hc]
        split
        · rfl
        · rw [Option.map_map]
          rfl

theorem unsigned?_append (h : EndsValue rest) (cs : List Char) :
    unsigned? (cs ++ rest) = (unsigned? cs).map fun p => (p.1, p.2 ++ rest) := by
  cases cs with
  | nil =>
    cases rest with
    | nil => rfl
    | cons c r => simp [unsigned?, h.isDigit]
  | cons c cs =>
    rw [List.cons_append, unsigned?, unsigned?]
    split
    · rfl
    · rw [wholePart_append h]
      exact afterWhole?_append h _ _ _

theorem number?_of_no_minus {cs : List Char} (hcs : ∀ r, cs ≠ '-' :: r) :
    number? cs = (unsigned? cs).map fun p => (positive p.1, p.2) := by
  unfold number?
  split
  · exact absurd rfl (hcs _)
  · rfl

theorem number?_append (h : EndsValue rest) (cs : List Char) :
    number? (cs ++ rest) = (number? cs).map fun p => (p.1, p.2 ++ rest) := by
  by_cases hminus : ∃ r, cs = '-' :: r
  · obtain ⟨r, rfl⟩ := hminus
    simp only [List.cons_append, number?, unsigned?_append h, Option.map_map, Function.comp_def]
  · have hcs (r : List Char) (hr : cs = '-' :: r) : False := hminus ⟨r, hr⟩
    rw [number?_of_no_minus, number?_of_no_minus hcs, unsigned?_append h, Option.map_map,
      Option.map_map]
    · rfl
    · intro r hr
      cases cs with
      | nil => exact (not_numeral_of_mem_enders '-' (h '-' r hr)).2.2.1 rfl
      | cons c cs => exact hcs cs (by rw [(List.cons.inj hr).1])

/-! ## What a number takes -/

/-- Digits, signs, points and exponent marks. -/
def NumeralChar (c : Char) : Prop :=
  c.isDigit = true ∨ c ∈ ['-', '+', '.', 'e', 'E']

/-- The text goes on with `rest` after characters of numerals. -/
def TakesNumeral (cs rest : List Char) : Prop :=
  ∃ p, cs = p ++ rest ∧ ∀ c ∈ p, NumeralChar c

theorem TakesNumeral.refl (cs : List Char) : TakesNumeral cs cs :=
  ⟨[], rfl, fun _ h => nomatch h⟩

theorem TakesNumeral.trans {cs cs' : List Char} (h : TakesNumeral cs cs')
    (h' : TakesNumeral cs' rest) : TakesNumeral cs rest := by
  obtain ⟨p, rfl, hp⟩ := h
  obtain ⟨p', rfl, hp'⟩ := h'
  exact ⟨p ++ p', (List.append_assoc ..).symm, fun c hc => (List.mem_append.1 hc).elim (hp c) (hp' c)⟩

theorem TakesNumeral.cons {cs : List Char} {c : Char} (hc : NumeralChar c)
    (h : TakesNumeral cs rest) : TakesNumeral (c :: cs) rest :=
  .trans ⟨[c], rfl, List.forall_mem_singleton.2 hc⟩ h

theorem takes_dropWhile (cs : List Char) : TakesNumeral cs (cs.dropWhile Char.isDigit) :=
  ⟨cs.takeWhile Char.isDigit, List.takeWhile_append_dropWhile.symm,
    fun _ hc => .inl (List.mem_takeWhile_imp hc)⟩

theorem takes_significand (n : Nat) (cs : List Char) : TakesNumeral cs (significand n cs).2.2 := by
  induction cs generalizing n with
  | nil => exact .refl _
  | cons c cs ih =>
    rw [significand]
    split
    · rename_i hdigit
      dsimp only
      split
      · exact .refl _
      · exact .cons (.inl hdigit) (ih _)
    · exact .refl _

theorem takes_exponentSign (cs : List Char) : TakesNumeral cs (exponentSign cs).2 := by
  unfold exponentSign
  split
  · exact .cons (.inr (by simp)) (.refl _)
  · exact .cons (.inr (by simp)) (.refl _)
  · exact .refl _

theorem takes_exponent? {mant : Nat} {e : Int} {cs : List Char} {x : Float}
    (h : exponent? mant e cs = some (x, rest)) : TakesNumeral cs rest := by
  obtain ⟨y, -, hy⟩ := Option.map_eq_some_iff.1 h
  rw [← (Prod.mk.inj hy).2]
  exact (takes_exponentSign cs).trans (takes_dropWhile _)

theorem takes_scaledNumber? {mant : Nat} {e : Int} {cs : List Char} {x : Float}
    (h : scaledNumber? mant e cs = some (x, rest)) : TakesNumeral cs rest := by
  unfold scaledNumber? at h
  split at h
  · exact .cons (.inr (by simp)) (takes_exponent? h)
  · exact .cons (.inr (by simp)) (takes_exponent? h)
  · obtain ⟨y, -, hy⟩ := Option.map_eq_some_iff.1 h
    rw [← (Prod.mk.inj hy).2]
    exact .refl _

theorem takes_fraction? {mant : Nat} {e : Int} {cs : List Char} {x : Float}
    (h : fraction? mant e cs = some (x, rest)) : TakesNumeral cs rest := by
  unfold fraction? at h
  dsimp only at h
  split at h
  · cases h
  · exact ((takes_significand mant cs).trans (takes_dropWhile _)).trans (takes_scaledNumber? h)

theorem takes_wholePart (c : Char) (cs : List Char) :
    c.isDigit = true → TakesNumeral (c :: cs) (wholePart c cs).2.2 := by
  intro hc
  unfold wholePart
  split
  · exact .cons (.inl hc) (.refl _)
  · exact (takes_significand 0 (c :: cs)).trans (takes_dropWhile _)

theorem takes_afterWhole? {n dropped : Nat} {cs : List Char} {x : Nat ⊕ Float}
    (h : afterWhole? n dropped cs = some (x, rest)) : TakesNumeral cs rest := by
  unfold afterWhole? at h
  split at h
  · obtain ⟨y, hread, hy⟩ := Option.map_eq_some_iff.1 h
    rw [← (Prod.mk.inj hy).2]
    exact .cons (.inr (by simp)) (takes_fraction? hread)
  · obtain ⟨y, hread, hy⟩ := Option.map_eq_some_iff.1 h
    rw [← (Prod.mk.inj hy).2]
    exact .cons (.inr (by simp)) (takes_exponent? hread)
  · obtain ⟨y, hread, hy⟩ := Option.map_eq_some_iff.1 h
    rw [← (Prod.mk.inj hy).2]
    exact .cons (.inr (by simp)) (takes_exponent? hread)
  · split at h
    · cases h
    · obtain ⟨y, -, hy⟩ := Option.map_eq_some_iff.1 h
      rw [← (Prod.mk.inj hy).2]
      exact .refl _
  · obtain ⟨y, -, hy⟩ := Option.map_eq_some_iff.1 h
    rw [← (Prod.mk.inj hy).2]
    exact .refl _

theorem takes_unsigned? {cs : List Char} {x : Nat ⊕ Float} (h : unsigned? cs = some (x, rest)) :
    TakesNumeral cs rest ∧ ∃ c r, cs = c :: r ∧ c.isDigit = true := by
  cases cs with
  | nil => cases h
  | cons c cs =>
    rw [unsigned?] at h
    split at h
    · cases h
    · rename_i hdigit
      have hdigit : c.isDigit = true := by simpa using hdigit
      exact ⟨(takes_wholePart c cs hdigit).trans (takes_afterWhole? h), c, cs, rfl, hdigit⟩

/-- Reading a number takes characters of numerals, of which the first is a minus sign or digit. -/
theorem takes_number? {cs : List Char} {n : JsonNumber} (h : number? cs = some (n, rest)) :
    TakesNumeral cs rest ∧ ∃ c r, cs = c :: r ∧ (c = '-' ∨ c.isDigit = true) := by
  unfold number? at h
  split at h
  · obtain ⟨y, hread, hy⟩ := Option.map_eq_some_iff.1 h
    rw [← (Prod.mk.inj hy).2]
    exact ⟨.cons (.inr (by simp)) (takes_unsigned? hread).1, _, _, rfl, .inl rfl⟩
  · obtain ⟨y, hread, hy⟩ := Option.map_eq_some_iff.1 h
    rw [← (Prod.mk.inj hy).2]
    obtain ⟨htakes, c, r, hcs, hc⟩ := takes_unsigned? hread
    exact ⟨htakes, c, r, hcs, .inr hc⟩

/-! ## Numerals -/

def Digits (cs : List Char) : Prop :=
  ∀ c ∈ cs, c.isDigit = true

/-- Nothing, or an exponent with a sign. -/
def Exponent (cs : List Char) : Prop :=
  cs = [] ∨ ∃ sign ds, cs = 'e' :: sign :: ds ∧ (sign = '+' ∨ sign = '-') ∧ Digits ds

/-- Digits, perhaps a point with more of them, and perhaps an exponent. -/
def Numeral (cs : List Char) : Prop :=
  ∃ whole tail, cs = whole ++ tail ∧ whole ≠ [] ∧ Digits whole ∧
    (Exponent tail ∨ ∃ ds expo, tail = '.' :: (ds ++ expo) ∧ Digits ds ∧ Exponent expo)

theorem digits_append {cs ds : List Char} (hcs : Digits cs) (hds : Digits ds) : Digits (cs ++ ds) :=
  fun c hc => (List.mem_append.1 hc).elim (hcs c) (hds c)

theorem Digits.dropWhile_append {ds tail : List Char} (hds : Digits ds)
    (htail : ∀ c r, tail = c :: r → c.isDigit = false) :
    (ds ++ tail).dropWhile Char.isDigit = tail := by
  rw [List.dropWhile_append_of_pos hds]
  cases tail with
  | nil => rfl
  | cons c r => rw [List.dropWhile_cons_of_neg (by simp [htail c r rfl])]

theorem Exponent.no_digit {cs : List Char} (h : Exponent cs) :
    ∀ c r, cs = c :: r → c.isDigit = false := by
  rintro c r rfl
  rcases h with h | ⟨sign, ds, h, -⟩
  · cases h
  · rw [(List.cons.inj h).1]
    rfl

theorem dropWhile_significand (n : Nat) (cs : List Char) :
    (significand n cs).2.2.dropWhile Char.isDigit = cs.dropWhile Char.isDigit := by
  induction cs generalizing n with
  | nil => rfl
  | cons c cs ih =>
    rw [significand]
    split
    · rename_i hdigit
      dsimp only
      split
      · rfl
      · rw [ih, List.dropWhile_cons_of_pos hdigit]
    · rfl

/-! ## Numerals are read as a whole -/

variable {r : List Char}

theorem exponent?_rest {mant : Nat} {e : Int} {sign : Char} {ds : List Char} {x : Float}
    (hsign : sign = '+' ∨ sign = '-') (hds : Digits ds)
    (h : exponent? mant e (sign :: ds) = some (x, r)) : r = [] := by
  have hrest : ds.dropWhile Char.isDigit = [] := List.dropWhile_eq_nil_iff.2 hds
  rcases hsign with rfl | rfl
  all_goals
    obtain ⟨y, -, hy⟩ := Option.map_eq_some_iff.1 h
    exact (Prod.mk.inj hy).2.symm.trans hrest

theorem scaledNumber?_rest {mant : Nat} {e : Int} {cs : List Char} {x : Float} (hcs : Exponent cs)
    (h : scaledNumber? mant e cs = some (x, r)) : r = [] := by
  rcases hcs with rfl | ⟨sign, ds, rfl, hsign, hds⟩
  · obtain ⟨y, -, hy⟩ := Option.map_eq_some_iff.1 h
    exact (Prod.mk.inj hy).2.symm
  · exact exponent?_rest hsign hds h

theorem fraction?_rest {mant : Nat} {e : Int} {ds expo : List Char} {x : Float} (hds : Digits ds)
    (hexpo : Exponent expo) (h : fraction? mant e (ds ++ expo) = some (x, r)) : r = [] := by
  simp only [fraction?, dropWhile_significand, hds.dropWhile_append hexpo.no_digit] at h
  split at h
  · cases h
  · exact scaledNumber?_rest hexpo h

theorem afterWhole?_rest {n dropped : Nat} {cs : List Char} {x : Nat ⊕ Float}
    (hcs : Exponent cs ∨ ∃ ds expo, cs = '.' :: (ds ++ expo) ∧ Digits ds ∧ Exponent expo)
    (h : afterWhole? n dropped cs = some (x, r)) : r = [] := by
  rcases hcs with (rfl | ⟨sign, ds, rfl, hsign, hds⟩) | ⟨ds, expo, rfl, hds, hexpo⟩
  · obtain ⟨y, -, hy⟩ := Option.map_eq_some_iff.1 h
    exact (Prod.mk.inj hy).2.symm
  · obtain ⟨y, hread, hy⟩ := Option.map_eq_some_iff.1 h
    rw [← (Prod.mk.inj hy).2]
    exact exponent?_rest hsign hds hread
  · obtain ⟨y, hread, hy⟩ := Option.map_eq_some_iff.1 h
    rw [← (Prod.mk.inj hy).2]
    exact fraction?_rest hds hexpo hread

theorem unsigned?_rest {cs : List Char} {x : Nat ⊕ Float} (hcs : Numeral cs)
    (h : unsigned? cs = some (x, r)) : r = [] := by
  obtain ⟨whole, tail, rfl, hwhole, hdigits, htail⟩ := hcs
  have hno : ∀ c r, tail = c :: r → c.isDigit = false := by
    rcases htail with htail | ⟨ds, expo, rfl, -⟩
    · exact htail.no_digit
    · intro c r hc
      rw [← (List.cons.inj hc).1]
      rfl
  cases whole with
  | nil => exact absurd rfl hwhole
  | cons c cs =>
    rw [List.cons_append, unsigned?] at h
    split at h
    · cases h
    · by_cases hzero : c = '0'
      · subst hzero
        cases cs with
        | nil => exact afterWhole?_rest htail h
        | cons d ds =>
          -- A zero is followed by no digit.
          have hd : d.isDigit = true := hdigits d (by simp)
          have : afterWhole? 0 0 (d :: (ds ++ tail)) = none := by
            unfold afterWhole?
            split <;> simp_all
          rw [show wholePart '0' (d :: ds ++ tail) = (0, 0, d :: (ds ++ tail)) from rfl] at h
          simp [this] at h
      · have hpart : (wholePart c (cs ++ tail)).2.2 = tail := by
          rw [wholePart, if_neg (by simpa using hzero)]
          dsimp only
          rw [dropWhile_significand, ← List.cons_append]
          exact Digits.dropWhile_append hdigits hno
        have hafter : afterWhole? (wholePart c (cs ++ tail)).1 (wholePart c (cs ++ tail)).2.1
            (wholePart c (cs ++ tail)).2.2 = some (x, r) := h
        rw [hpart] at hafter
        exact afterWhole?_rest htail hafter

theorem number?_rest {cs : List Char} {n : JsonNumber}
    (hcs : Numeral cs ∨ ∃ body, cs = '-' :: body ∧ Numeral body)
    (h : number? cs = some (n, r)) : r = [] := by
  rcases hcs with hcs | ⟨body, rfl, hbody⟩
  · rw [number?_of_no_minus] at h
    · obtain ⟨p, hread, hp⟩ := Option.map_eq_some_iff.1 h
      rw [← (Prod.mk.inj hp).2]
      exact unsigned?_rest hcs hread
    · rintro r rfl
      obtain ⟨whole, tail, hwhole, hne, hdigits, -⟩ := hcs
      cases whole with
      | nil => exact hne rfl
      | cons c cs =>
        have := hdigits c List.mem_cons_self
        rw [← (List.cons.inj hwhole).1] at this
        cases this
  · obtain ⟨p, hread, hp⟩ := Option.map_eq_some_iff.1 h
    rw [← (Prod.mk.inj hp).2]
    exact unsigned?_rest hbody hread

end Read

/-! ## The text of a number -/

open Read

theorem isDigit_digitChar {d : Nat} (h : d < 10) : (digitChar d).isDigit = true :=
  (show ∀ d < 10, (digitChar d).isDigit = true by decide) d h

theorem digits_digitChars {ds : List Nat} (h : ∀ d ∈ ds, d < 10) : Digits (digitChars ds) := by
  intro c hc
  obtain ⟨d, hd, rfl⟩ := List.mem_map.1 hc
  exact isDigit_digitChar (h d hd)

theorem lt_ten_of_mem_digitsRev {n d : Nat} (h : d ∈ digitsRev n) : d < 10 := by
  fun_induction digitsRev n with
  | case1 => exact absurd h List.not_mem_nil
  | case2 n hn ih =>
    rcases List.mem_cons.1 h with rfl | h
    · exact Nat.mod_lt _ (by decide)
    · exact ih h

theorem mem_of_mem_stripZeros {ds : List Nat} {d : Nat} (h : d ∈ stripZeros ds) : d ∈ ds := by
  fun_induction stripZeros ds with
  | case1 ds ih => exact List.mem_cons_of_mem _ (ih h)
  | case2 ds => exact h

theorem stripZeros_digitsRev_ne_nil {n : Nat} (hn : n ≠ 0) : stripZeros (digitsRev n) ≠ [] := by
  induction n using Nat.strongRecOn with
  | ind n ih =>
    rw [digitsRev, if_neg hn]
    cases hmod : n % 10 with
    | zero =>
      rw [stripZeros]
      exact ih (n / 10) (by omega) (by omega)
    | succ m =>
      rw [stripZeros]
      · exact List.cons_ne_nil _ _
      · simp

theorem lt_ten_of_mem_digitsOf {n d : Nat} (h : d ∈ digitsOf n) : d < 10 := by
  rw [digitsOf] at h
  split at h
  · rw [List.mem_singleton.1 h]
    decide
  · exact lt_ten_of_mem_digitsRev (List.mem_reverse.1 h)

theorem digits_natChars (n : Nat) : Digits (natChars n) :=
  digits_digitChars fun _ hd => lt_ten_of_mem_digitsOf hd

theorem natChars_ne_nil (n : Nat) : natChars n ≠ [] := by
  rw [natChars, digitChars, Ne, List.map_eq_nil_iff, digitsOf]
  split
  · exact List.cons_ne_nil _ _
  · rename_i hn
    rw [digitsRev, if_neg hn]
    simp

theorem shortest_digits (tie : Tie) (x : Float) :
    (Decimal.shortest tie x).digits ≠ [] ∧ ∀ d ∈ (Decimal.shortest tie x).digits, d < 10 := by
  have hzero : [0] ≠ [] ∧ ∀ d ∈ [0], d < 10 := by decide
  have hscaled (n : Nat) (k : Int) : (Decimal.ofScaled n k).digits ≠ [] ∧
      ∀ d ∈ (Decimal.ofScaled n k).digits, d < 10 := by
    unfold Decimal.ofScaled
    split
    · exact hzero
    · rename_i hn
      refine ⟨by simpa using stripZeros_digitsRev_ne_nil hn, fun d hd => ?_⟩
      exact lt_ten_of_mem_digitsRev (mem_of_mem_stripZeros (List.mem_reverse.1 hd))
  unfold Decimal.shortest
  dsimp only
  split
  · exact hzero
  · exact hscaled _ _

theorem digits_zeros (n : Nat) : Digits (zeros n) := by
  intro c hc
  rw [List.eq_of_mem_replicate hc]
  rfl

theorem numeral_digits {cs : List Char} (hne : cs ≠ []) (hcs : Digits cs) : Numeral cs :=
  ⟨cs, [], (List.append_nil cs).symm, hne, hcs, .inl (.inl rfl)⟩

theorem numeral_point {whole ds : List Char} (hne : whole ≠ []) (hwhole : Digits whole)
    (hds : Digits ds) : Numeral (whole ++ '.' :: ds) :=
  ⟨whole, _, rfl, hne, hwhole, .inr ⟨ds, [], by rw [List.append_nil], hds, .inl rfl⟩⟩

theorem numeral_numberChars (n : JsonNumber) :
    Numeral (numberChars n) ∨ ∃ body, numberChars n = '-' :: body ∧ Numeral body := by
  have hsign (b : Prop) [Decidable b] {body : List Char} (hbody : Numeral body) :
      Numeral (if b then '-' :: body else body) ∨
        ∃ cs, (if b then '-' :: body else body) = '-' :: cs ∧ Numeral cs := by
    split
    · exact .inr ⟨body, rfl, hbody⟩
    · exact .inl hbody
  cases n with
  | int n => exact hsign _ (numeral_digits (natChars_ne_nil _) (digits_natChars _))
  | float x =>
    obtain ⟨hne, hlt⟩ := shortest_digits .toEven x
    have hds := digits_digitChars hlt
    have hdsne : digitChars (Decimal.shortest .toEven x).digits ≠ [] := by
      simpa [digitChars] using hne
    refine hsign _ ?_
    generalize digitChars (Decimal.shortest .toEven x).digits = ds at hds hdsne ⊢
    generalize (Decimal.shortest .toEven x).exponent = e
    -- The point stands behind the digits, among them or in front of them, or there is an exponent.
    split
    · rw [show ".0".toList = ['.', '0'] from rfl]
      exact numeral_point (by simp [hdsne]) (digits_append hds (digits_zeros _))
        (by simp [Digits])
    · split
      · rename_i hpoint
        have hpos : 0 < (e + 1).toNat := by omega
        refine numeral_point ?_ (fun c hc => hds c (List.mem_of_mem_take hc))
          fun c hc => hds c (List.mem_of_mem_drop hc)
        cases ds with
        | nil => exact absurd rfl hdsne
        | cons d ds => simp [Nat.pos_iff_ne_zero.1 hpos]
      · split
        · exact numeral_point (List.cons_ne_nil '0' []) (by simp [Digits])
            (digits_append (digits_zeros _) hds)
        · have hexpo : Exponent ('e' :: (if e < 0 then '-' else '+') :: natChars e.natAbs) :=
            .inr ⟨_, _, rfl, by split <;> simp, digits_natChars _⟩
          cases ds with
          | nil => exact absurd rfl hdsne
          | cons d ds =>
            have hd : Digits [d] := fun c hc => hds c (List.mem_singleton.1 hc ▸ List.mem_cons_self)
            cases ds with
            | nil => exact ⟨[d], _, rfl, by simp, hd, .inl hexpo⟩
            | cons d' ds =>
              exact ⟨[d], _, rfl, by simp, hd, .inr ⟨d' :: ds, _, rfl,
                fun c hc => hds c (List.mem_cons_of_mem _ hc), hexpo⟩⟩

theorem mem_numberChars {n : JsonNumber} {c : Char} (h : c ∈ numberChars n) : NumeralChar c := by
  have hexpo {cs : List Char} (hcs : Exponent cs) (hc : c ∈ cs) : NumeralChar c := by
    rcases hcs with rfl | ⟨sign, ds, rfl, hsign, hds⟩
    · exact absurd hc List.not_mem_nil
    · rcases List.mem_cons.1 hc with rfl | hc
      · exact .inr (by simp)
      · rcases List.mem_cons.1 hc with rfl | hc
        · exact .inr (by rcases hsign with rfl | rfl <;> simp)
        · exact .inl (hds c hc)
  have hnumeral {cs : List Char} (hcs : Numeral cs) (hc : c ∈ cs) : NumeralChar c := by
    obtain ⟨whole, tail, rfl, -, hwhole, htail⟩ := hcs
    rcases List.mem_append.1 hc with hc | hc
    · exact .inl (hwhole c hc)
    · rcases htail with htail | ⟨ds, expo, rfl, hds, hex⟩
      · exact hexpo htail hc
      · rcases List.mem_cons.1 hc with rfl | hc
        · exact .inr (by simp)
        · rcases List.mem_append.1 hc with hc | hc
          · exact .inl (hds c hc)
          · exact hexpo hex hc
  rcases numeral_numberChars n with hcs | ⟨body, hcs, hbody⟩
  · exact hnumeral hcs h
  · rw [hcs] at h
    rcases List.mem_cons.1 h with rfl | h
    · exact .inr (by simp)
    · exact hnumeral hbody h

/-- The number that the text of a number is read as, if it can be read: a float may be rounded. -/
def rereadNumber? (n : JsonNumber) : Option JsonNumber :=
  (number? (numberChars n)).map Prod.fst

/-- **The text of a number** is read as a whole or not at all, whatever ends it. -/
theorem number?_numberChars (n : JsonNumber) {rest : List Char} (h : EndsValue rest) :
    number? (numberChars n ++ rest) = (rereadNumber? n).map (·, rest) := by
  rw [number?_append h, rereadNumber?, Option.map_map]
  cases hread : number? (numberChars n) with
  | none => rfl
  | some p =>
    obtain ⟨m, r⟩ := p
    rw [number?_rest (numeral_numberChars n) hread]
    rfl

end ChartTemplate.Json
