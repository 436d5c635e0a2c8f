import ChartTemplate.Format.Specifier
import ChartTemplate.Proofs.Json.Digits

/-!
# What specifiers are accepted

`FormatSpec.Parts` are the parts of a specifier as they are written. Taking parts from the start of a
text leaves the parts that were taken and the rest (`FormatSpec.exists_parts_of_take`). It takes all that
is written, since no part begins with a character that an earlier one could take
(`FormatSpec.take_parts`); only a zero before the width could be part of it, and then it is the flag.

So a text is accepted exactly if it has the form of a specifier (`FormatSpec.parse_iff`).
-/

namespace ChartTemplate

/-- A digit string whose value is at most `limit`. -/
structure BoundedNumeral (limit : Nat) where
  chars : List Char
  ne_nil : chars ≠ []
  digits : Json.Read.Digits chars
  le : natOfChars chars ≤ limit

namespace FormatSpec

/-! ## The form of a specifier -/

def alignChars : Option (Option Char × Align) → List Char
  | none => []
  | some (fill, align) => fill.toList ++ [align.char]

def flagChars (c : Char) (flag : Bool) : List Char :=
  if flag then [c] else []

def numeralChars {limit : Nat} (n : Option (BoundedNumeral limit)) : List Char :=
  (n.map BoundedNumeral.chars).getD []

def pointChars {limit : Nat} : Option (BoundedNumeral limit) → List Char
  | none => []
  | some n => '.' :: n.chars

/-- The parts of a specifier. A fill character stands before an alignment only. -/
structure Parts where
  fillAlign : Option (Option Char × Align)
  sign : Option SignMode
  symbol : Option FormatSymbol
  zero : Bool
  width : Option (BoundedNumeral maxWidth)
  comma : Bool
  precision : Option (BoundedNumeral maxPrecision)
  trim : Bool
  /-- An ASCII letter or a percent sign. -/
  kind : Option { c : Char // c.isAlpha = true ∨ c = '%' }

namespace Parts

def fromKind (p : Parts) : List Char :=
  (p.kind.map Subtype.val).toList

def fromTrim (p : Parts) : List Char :=
  flagChars '~' p.trim ++ p.fromKind

def fromPrecision (p : Parts) : List Char :=
  pointChars p.precision ++ p.fromTrim

def fromComma (p : Parts) : List Char :=
  flagChars ',' p.comma ++ p.fromPrecision

def fromWidth (p : Parts) : List Char :=
  numeralChars p.width ++ p.fromComma

def fromZero (p : Parts) : List Char :=
  flagChars '0' p.zero ++ p.fromWidth

def fromSymbol (p : Parts) : List Char :=
  (p.symbol.map FormatSymbol.char).toList ++ p.fromZero

def fromSign (p : Parts) : List Char :=
  (p.sign.map SignMode.char).toList ++ p.fromSymbol

def chars (p : Parts) : List Char :=
  alignChars p.fillAlign ++ p.fromSign

/-- What a specifier with these parts stands for. Without a part, padding is with blanks before the
number, and a minus sign is all that is written of signs. -/
def spec (p : Parts) : FormatSpec where
  fill := (p.fillAlign.bind Prod.fst).getD ' '
  align := (p.fillAlign.map Prod.snd).getD .right
  sign := p.sign.getD .minus
  symbol := p.symbol
  zero := p.zero
  width := p.width.map fun n => natOfChars n.chars
  comma := p.comma
  precision := p.precision.map fun n => natOfChars n.chars
  trim := p.trim
  kind := p.kind.map Subtype.val

/-- A zero before the width is the flag. -/
def ZeroFirst (p : Parts) : Prop :=
  p.zero = false → (numeralChars p.width).head? ≠ some '0'

end Parts

/-! ## Characters of parts -/

/-- The number of the part that a character begins, where the width has the number three. -/
def place (c : Char) : Nat :=
  if (Align.ofChar? c).isSome then 0
  else if (SignMode.ofChar? c).isSome then 1
  else if (FormatSymbol.ofChar? c).isSome then 2
  else if c.isDigit then 3
  else if c = ',' then 4
  else if c = '.' then 5
  else if c = '~' then 6
  else 7

variable {c : Char}

theorem char_of_align {a : Align} (h : Align.ofChar? c = some a) : a.char = c := by
  unfold Align.ofChar? at h
  split at h <;> cases h <;> rfl

theorem char_of_sign {s : SignMode} (h : SignMode.ofChar? c = some s) : s.char = c := by
  unfold SignMode.ofChar? at h
  split at h <;> cases h <;> rfl

theorem char_of_symbol {s : FormatSymbol} (h : FormatSymbol.ofChar? c = some s) : s.char = c := by
  unfold FormatSymbol.ofChar? at h
  split at h <;> cases h <;> rfl

theorem align_of_place (h : 1 ≤ place c) : Align.ofChar? c = none := by
  unfold place at h
  split at h
  · omega
  · simpa using ‹¬(Align.ofChar? c).isSome = true›

theorem sign_of_place (h : 2 ≤ place c) : SignMode.ofChar? c = none := by
  unfold place at h
  split at h
  · omega
  · split at h
    · omega
    · simpa using ‹¬(SignMode.ofChar? c).isSome = true›

theorem symbol_of_place (h : 3 ≤ place c) : FormatSymbol.ofChar? c = none := by
  unfold place at h
  split at h
  · omega
  · split at h
    · omega
    · split at h
      · omega
      · simpa using ‹¬(FormatSymbol.ofChar? c).isSome = true›

theorem isDigit_of_place (h : 4 ≤ place c) : c.isDigit = false := by
  cases hdigit : c.isDigit with
  | false => rfl
  | true =>
    have hplace : place c ≤ 3 := by
      unfold place
      split_ifs <;> omega
    omega

theorem ne_of_place {d : Char} (h : place d < place c) : c ≠ d := by
  rintro rfl
  exact lt_irrefl _ h

theorem ofChar?_eq_none {p : Char → Bool} (hp : "<>=^+-( $#".toList.all (!p ·) = true)
    (h : p c = true) :
    Align.ofChar? c = none ∧ SignMode.ofChar? c = none ∧ FormatSymbol.ofChar? c = none := by
  have hne (d : Char) (hd : d ∈ "<>=^+-( $#".toList) : d ≠ c := by
    rintro rfl
    simpa [h] using List.all_eq_true.1 hp d hd
  refine ⟨?_, ?_, ?_⟩
  · refine Option.eq_none_iff_forall_ne_some.2 fun a ha => hne a.char ?_ (char_of_align ha)
    cases a <;> decide
  · refine Option.eq_none_iff_forall_ne_some.2 fun s hs => hne s.char ?_ (char_of_sign hs)
    cases s <;> decide
  · refine Option.eq_none_iff_forall_ne_some.2 fun s hs => hne s.char ?_ (char_of_symbol hs)
    cases s <;> decide

theorem place_of_isDigit (h : c.isDigit = true) : place c = 3 := by
  obtain ⟨halign, hsign, hsymbol⟩ := ofChar?_eq_none (p := Char.isDigit) (by decide) h
  simp [place, halign, hsign, hsymbol, h]

theorem place_of_kind (h : c.isAlpha = true ∨ c = '%') : place c = 7 := by
  have hkind : (c.isAlpha || c == '%') = true := by simpa using h
  have hnone {d : Char} (hd : (d.isAlpha || d == '%') = false) : c ≠ d := by
    rintro rfl
    rw [hkind] at hd
    cases hd
  obtain ⟨halign, hsign, hsymbol⟩ :=
    ofChar?_eq_none (p := fun c => c.isAlpha || c == '%') (by decide) hkind
  have hdigit : c.isDigit = false := by
    cases hdigit : c.isDigit with
    | false => rfl
    | true =>
      have hrange := Json.Read.isDigit_toNat hdigit
      have hletter : ∀ n < 58, 48 ≤ n → (Char.ofNat n).isAlpha = false := by decide
      rcases h with h | rfl
      · rw [← Char.ofNat_toNat c, hletter c.toNat (by omega) (by omega)] at h
        cases h
      · cases hdigit
  simp [place, halign, hsign, hsymbol, hdigit, hnone (d := ',') (by decide),
    hnone (d := '.') (by decide), hnone (d := '~') (by decide)]

/-! ## Where parts begin -/

/-- The first character of a text may begin the part of the given number or a later one. -/
def BeginsFrom (k : Nat) (cs : List Char) : Prop :=
  ∀ c r, cs = c :: r → k ≤ place c

variable {cs rest : List Char} {k l : Nat}

theorem BeginsFrom.mono (h : BeginsFrom l cs) (hk : k ≤ l) : BeginsFrom k cs :=
  fun c r hcs => hk.trans (h c r hcs)

theorem beginsFrom_nil (k : Nat) : BeginsFrom k [] := fun _ _ h => nomatch h

theorem beginsFrom_cons (h : k ≤ place c) (r : List Char) : BeginsFrom k (c :: r) :=
  fun _ _ hcs => (List.cons.inj hcs).1 ▸ h

theorem BeginsFrom.append (h : BeginsFrom k cs) (hrest : BeginsFrom k rest) :
    BeginsFrom k (cs ++ rest) := by
  cases cs with
  | nil => exact hrest
  | cons c cs => exact beginsFrom_cons (h c cs rfl) _

theorem beginsFrom_flagChars (h : k ≤ place c) (flag : Bool) : BeginsFrom k (flagChars c flag) := by
  cases flag with
  | false => exact beginsFrom_nil k
  | true => exact beginsFrom_cons h []

theorem beginsFrom_numeralChars {limit : Nat} (n : Option (BoundedNumeral limit)) :
    BeginsFrom 3 (numeralChars n) := by
  cases n with
  | none => exact beginsFrom_nil 3
  | some n =>
    rintro c r hcs
    have hc : c ∈ n.chars := by
      rw [show n.chars = c :: r from hcs]
      exact List.mem_cons_self
    rw [place_of_isDigit (n.digits c hc)]

namespace Parts

variable (p : Parts)

theorem beginsFrom_fromKind : BeginsFrom 7 p.fromKind := by
  unfold fromKind
  cases p.kind with
  | none => exact beginsFrom_nil 7
  | some c => exact beginsFrom_cons (place_of_kind c.2).ge []

theorem beginsFrom_fromTrim : BeginsFrom 6 p.fromTrim :=
  (beginsFrom_flagChars (by decide) _).append (p.beginsFrom_fromKind.mono (by omega))

theorem beginsFrom_fromPrecision : BeginsFrom 5 p.fromPrecision := by
  refine BeginsFrom.append ?_ (p.beginsFrom_fromTrim.mono (by omega))
  cases p.precision with
  | none => exact beginsFrom_nil 5
  | some n => exact beginsFrom_cons (by decide) _

theorem beginsFrom_fromComma : BeginsFrom 4 p.fromComma :=
  (beginsFrom_flagChars (by decide) _).append (p.beginsFrom_fromPrecision.mono (by omega))

theorem beginsFrom_fromWidth : BeginsFrom 3 p.fromWidth :=
  (beginsFrom_numeralChars _).append (p.beginsFrom_fromComma.mono (by omega))

theorem beginsFrom_fromZero : BeginsFrom 3 p.fromZero :=
  (beginsFrom_flagChars (by decide) _).append p.beginsFrom_fromWidth

theorem beginsFrom_fromSymbol : BeginsFrom 2 p.fromSymbol := by
  refine BeginsFrom.append ?_ (p.beginsFrom_fromZero.mono (by omega))
  cases p.symbol with
  | none => exact beginsFrom_nil 2
  | some s => exact beginsFrom_cons (by cases s <;> decide) []

theorem align_of_mem_fromSign (h : c ∈ p.fromSign) : Align.ofChar? c = none := by
  refine align_of_place ?_
  have hflag {d : Char} {flag : Bool} (hd : 1 ≤ place d) (hc : c ∈ flagChars d flag) : 1 ≤ place c := by
    cases flag with
    | false => cases hc
    | true => rwa [List.mem_singleton.1 hc]
  have hdigits {limit : Nat} (n : BoundedNumeral limit) (hc : c ∈ n.chars) : 1 ≤ place c := by
    rw [place_of_isDigit (n.digits c hc)]
    omega
  simp only [fromSign, fromSymbol, fromZero, fromWidth, fromComma, fromPrecision, fromTrim, fromKind,
    List.mem_append, Option.mem_toList,
    Option.map_eq_some_iff] at h
  rcases h with ⟨s, -, rfl⟩ | ⟨s, -, rfl⟩ | hzero | hwidth | hcomma | hpoint | htrim | ⟨k, -, rfl⟩
  · cases s <;> decide
  · cases s <;> decide
  · exact hflag (by decide) hzero
  · cases hn : p.width with
    | none => rw [hn] at hwidth; cases hwidth
    | some n => rw [hn] at hwidth; exact hdigits n hwidth
  · exact hflag (by decide) hcomma
  · cases hn : p.precision with
    | none => rw [hn] at hpoint; cases hpoint
    | some n =>
      rw [hn] at hpoint
      rcases List.mem_cons.1 hpoint with rfl | hpoint
      · decide
      · exact hdigits n hpoint
  · exact hflag (by decide) htrim
  · rw [place_of_kind k.2]
    omega

end Parts

/-! ## What is written is taken -/

theorem takeChar_append {α : Type} {f : Char → Option α} {char : α → Char} {a : Option α}
    (hchar : ∀ x, a = some x → f (char x) = some x) (hrest : ∀ c r, rest = c :: r → f c = none) :
    takeChar f ((a.map char).toList ++ rest) = (a, rest) := by
  cases a with
  | some x => simp [takeChar, hchar x rfl]
  | none =>
    cases rest with
    | nil => rfl
    | cons c r => simp [takeChar, hrest c r rfl]

theorem takeFlag_append (flag : Bool) (hrest : flag = false → ∀ d r, rest = d :: r → d ≠ c) :
    takeFlag c (flagChars c flag ++ rest) = (flag, rest) := by
  cases flag with
  | true => simp [takeFlag, flagChars]
  | false =>
    cases rest with
    | nil => rfl
    | cons d r => simp [takeFlag, flagChars, hrest rfl d r rfl]

theorem takeWhile_digits_append {ds : List Char} (hds : Json.Read.Digits ds) (hrest : BeginsFrom 4 rest) :
    (ds ++ rest).takeWhile Char.isDigit = ds ∧ (ds ++ rest).dropWhile Char.isDigit = rest := by
  have hno (c : Char) (r : List Char) (h : rest = c :: r) : c.isDigit = false :=
    isDigit_of_place (hrest c r h)
  refine ⟨?_, hds.dropWhile_append hno⟩
  rw [List.takeWhile_append_of_pos hds]
  cases rest with
  | nil => rw [List.takeWhile_nil, List.append_nil]
  | cons c r => rw [List.takeWhile_cons_of_neg (by simp [hno c r rfl]), List.append_nil]

theorem takeNat_append {limit : Nat} (n : Option (BoundedNumeral limit)) (hrest : BeginsFrom 4 rest) :
    takeNat limit (numeralChars n ++ rest) = (n.map fun n => natOfChars n.chars, rest) := by
  cases n with
  | none =>
    have hnil : Json.Read.Digits [] := fun _ h => nomatch h
    obtain ⟨htake, -⟩ := takeWhile_digits_append hnil hrest
    rw [List.nil_append] at htake
    simp [takeNat, numeralChars, htake]
  | some n =>
    obtain ⟨htake, hdrop⟩ := takeWhile_digits_append n.digits hrest
    have hne : n.chars.isEmpty = false := by simpa using n.ne_nil
    have hle : ¬limit < natOfChars n.chars := Nat.not_lt.2 n.le
    simp [takeNat, numeralChars, htake, hdrop, hne, hle]

theorem takePrecision_append (n : Option (BoundedNumeral maxPrecision)) (hrest : BeginsFrom 6 rest) :
    takePrecision (pointChars n ++ rest) = (n.map fun n => natOfChars n.chars, rest) := by
  cases n with
  | none =>
    cases rest with
    | nil => rfl
    | cons c r =>
      have hc : c ≠ '.' := ne_of_place (hrest c r rfl)
      unfold takePrecision
      split
      · rename_i heq
        exact absurd (List.cons.inj heq).1 hc
      · rfl
  | some n =>
    have hnat := takeNat_append (some n) (hrest.mono (by omega))
    rw [show numeralChars (some n) = n.chars from rfl] at hnat
    simp [takePrecision, pointChars, hnat]

theorem takeAlign_append (a : Option (Option Char × Align)) (hrest : ∀ c ∈ rest, Align.ofChar? c = none) :
    takeAlign (alignChars a ++ rest) = (a, rest) := by
  have halign (a : Align) : Align.ofChar? a.char = some a := by cases a <;> rfl
  match a with
  | some (some fill, a) => simp [takeAlign, alignChars, halign]
  | some (none, a) =>
    cases rest with
    | nil => simp [takeAlign, alignChars, halign]
    | cons c r => simp [takeAlign, alignChars, halign, hrest c List.mem_cons_self]
  | none =>
    match rest with
    | [] => rfl
    | [c] => simp [takeAlign, alignChars, hrest c List.mem_cons_self]
    | c :: d :: r => simp [takeAlign, alignChars, hrest c (by simp), hrest d (by simp)]

theorem take_parts (p : Parts) (hzero : p.ZeroFirst) : take p.chars = (p.spec, []) := by
  have halign : takeAlign p.chars = (p.fillAlign, p.fromSign) :=
    takeAlign_append _ fun c hc => p.align_of_mem_fromSign hc
  have hsign : takeChar SignMode.ofChar? p.fromSign = (p.sign, p.fromSymbol) :=
    takeChar_append (fun s _ => by cases s <;> rfl) fun c r hc =>
      sign_of_place (p.beginsFrom_fromSymbol c r hc)
  have hsymbol : takeChar FormatSymbol.ofChar? p.fromSymbol = (p.symbol, p.fromZero) :=
    takeChar_append (fun s _ => by cases s <;> rfl) fun c r hc =>
      symbol_of_place (p.beginsFrom_fromZero c r hc)
  have hflag : takeFlag '0' p.fromZero = (p.zero, p.fromWidth) := by
    refine takeFlag_append _ fun hfalse d r hd => ?_
    rintro rfl
    cases hw : numeralChars p.width with
    | nil =>
      rw [Parts.fromWidth, hw, List.nil_append] at hd
      exact absurd (p.beginsFrom_fromComma _ _ hd) (by decide)
    | cons c cs =>
      refine hzero hfalse ?_
      rw [Parts.fromWidth, hw] at hd
      rw [hw, (List.cons.inj hd).1]
      rfl
  have hwidth : takeNat maxWidth p.fromWidth = (p.spec.width, p.fromComma) :=
    takeNat_append p.width p.beginsFrom_fromComma
  have hcomma : takeFlag ',' p.fromComma = (p.comma, p.fromPrecision) :=
    takeFlag_append _ fun _ d r hd => ne_of_place (p.beginsFrom_fromPrecision d r hd)
  have hprecision : takePrecision p.fromPrecision = (p.spec.precision, p.fromTrim) :=
    takePrecision_append p.precision p.beginsFrom_fromTrim
  have htrim : takeFlag '~' p.fromTrim = (p.trim, p.fromKind) :=
    takeFlag_append _ fun _ d r hd => ne_of_place (p.beginsFrom_fromKind d r hd)
  have hkind : takeChar kind? p.fromKind = (p.spec.kind, []) := by
    have hknown (c : Char) (hc : p.spec.kind = some c) : kind? c = some c := by
      obtain ⟨k, -, rfl⟩ := Option.map_eq_some_iff.1 hc
      simp [kind?, k.2]
    have h : takeChar kind? ((p.spec.kind.map id).toList ++ []) = (p.spec.kind, []) :=
      takeChar_append hknown fun _ _ h => nomatch h
    rwa [Option.map_id_apply, List.append_nil] at h
  simp only [take, halign, hsign, hsymbol, hflag, hwidth, hcomma, hprecision, htrim, hkind]
  rfl

/-! ## What is taken was written -/

theorem eq_of_takeAlign {a : Option (Option Char × Align)} (h : takeAlign cs = (a, rest)) :
    cs = alignChars a ++ rest := by
  unfold takeAlign at h
  split at h
  · split at h
    · rename_i ha
      cases h
      simp [alignChars, char_of_align ha]
    · split at h
      · rename_i ha
        cases h
        simp [alignChars, char_of_align ha]
      · cases h
        rfl
  · split at h
    · rename_i ha
      cases h
      simp [alignChars, char_of_align ha]
    · cases h
      rfl
  · cases h
    rfl

theorem eq_of_takeChar {α : Type} {f : Char → Option α} {char : α → Char}
    (hchar : ∀ {c a}, f c = some a → char a = c) {a : Option α} (h : takeChar f cs = (a, rest)) :
    cs = (a.map char).toList ++ rest := by
  unfold takeChar at h
  split at h
  · cases h
    rfl
  · split at h
    · rename_i ha
      cases h
      simp [hchar ha]
    · cases h
      rfl

theorem eq_of_takeFlag {flag : Bool} (h : takeFlag c cs = (flag, rest)) :
    cs = flagChars c flag ++ rest := by
  unfold takeFlag at h
  split at h
  · cases h
    rfl
  · split at h
    · rename_i hc
      cases h
      rw [hc]
      rfl
    · cases h
      rfl

theorem head?_of_takeFlag (h : takeFlag c cs = (false, rest)) : rest.head? ≠ some c := by
  unfold takeFlag at h
  split at h
  · cases h
    simp
  · split at h
    · cases h
    · rename_i hc
      cases h
      simpa using hc

theorem exists_of_takeNat {limit : Nat} {n : Option Nat} (h : takeNat limit cs = (n, rest)) :
    ∃ m : Option (BoundedNumeral limit), n = m.map (fun m => natOfChars m.chars) ∧
      cs = numeralChars m ++ rest := by
  unfold takeNat at h
  dsimp only at h
  split at h
  · cases h
    exact ⟨none, rfl, rfl⟩
  · rename_i hds
    simp only [Bool.or_eq_true, List.isEmpty_iff, decide_eq_true_eq, not_or, Nat.not_lt] at hds
    cases h
    exact ⟨some ⟨cs.takeWhile Char.isDigit, hds.1, fun c hc => List.mem_takeWhile_imp hc, hds.2⟩, rfl,
      List.takeWhile_append_dropWhile.symm⟩

theorem exists_of_takePrecision {n : Option Nat} (h : takePrecision cs = (n, rest)) :
    ∃ m : Option (BoundedNumeral maxPrecision), n = m.map (fun m => natOfChars m.chars) ∧
      cs = pointChars m ++ rest := by
  unfold takePrecision at h
  split at h
  · split at h
    · rename_i htake
      cases h
      obtain ⟨m, hm, rfl⟩ := exists_of_takeNat htake
      cases m with
      | none => cases hm
      | some m => exact ⟨some m, hm, rfl⟩
    · cases h
      exact ⟨none, rfl, rfl⟩
  · cases h
    exact ⟨none, rfl, rfl⟩

theorem exists_of_takeKind {k : Option Char} (h : takeChar kind? cs = (k, rest)) :
    ∃ l : Option { c : Char // c.isAlpha = true ∨ c = '%' }, k = l.map Subtype.val ∧
      cs = (l.map Subtype.val).toList ++ rest := by
  unfold takeChar at h
  split at h
  · cases h
    exact ⟨none, rfl, rfl⟩
  · split at h
    · rename_i ha
      unfold kind? at ha
      split at ha
      · rename_i hc
        cases ha
        cases h
        exact ⟨some ⟨_, by simpa using hc⟩, rfl, rfl⟩
      · cases ha
    · cases h
      exact ⟨none, rfl, rfl⟩

theorem exists_parts_of_take {s : FormatSpec} (h : take cs = (s, rest)) :
    ∃ p : Parts, p.ZeroFirst ∧ p.spec = s ∧ cs = p.chars ++ rest := by
  unfold take at h
  rcases halign : takeAlign cs with ⟨fillAlign, cs₁⟩
  rcases hsign : takeChar SignMode.ofChar? cs₁ with ⟨sign, cs₂⟩
  rcases hsymbol : takeChar FormatSymbol.ofChar? cs₂ with ⟨symbol, cs₃⟩
  rcases hzero : takeFlag '0' cs₃ with ⟨zero, cs₄⟩
  rcases hwidth : takeNat maxWidth cs₄ with ⟨width, cs₅⟩
  rcases hcomma : takeFlag ',' cs₅ with ⟨comma, cs₆⟩
  rcases hprecision : takePrecision cs₆ with ⟨precision, cs₇⟩
  rcases htrim : takeFlag '~' cs₇ with ⟨trim, cs₈⟩
  rcases hkind : takeChar kind? cs₈ with ⟨kind, cs₉⟩
  simp only [halign, hsign, hsymbol, hzero, hwidth, hcomma, hprecision, htrim, hkind] at h
  obtain ⟨rfl, rfl⟩ := Prod.mk.inj h
  obtain ⟨w, rfl, rfl⟩ := exists_of_takeNat hwidth
  obtain ⟨q, rfl, rfl⟩ := exists_of_takePrecision hprecision
  obtain ⟨k, rfl, rfl⟩ := exists_of_takeKind hkind
  refine ⟨⟨fillAlign, sign, symbol, zero, w, comma, q, trim, k⟩, ?_, rfl, ?_⟩
  · rintro hfalse hfirst
    obtain rfl : zero = false := hfalse
    refine head?_of_takeFlag hzero ?_
    rw [List.head?_append, show (numeralChars w).head? = some '0' from hfirst]
    rfl
  · rw [eq_of_takeAlign halign, eq_of_takeChar char_of_sign hsign, eq_of_takeChar char_of_symbol hsymbol,
      eq_of_takeFlag hzero, eq_of_takeFlag hcomma, eq_of_takeFlag htrim]
    simp only [Parts.chars, Parts.fromSign, Parts.fromSymbol, Parts.fromZero, Parts.fromWidth,
      Parts.fromComma, Parts.fromPrecision, Parts.fromTrim, Parts.fromKind, List.append_assoc]

/-! ## Acceptance -/

theorem exists_numeral_of_zero {limit : Nat} (n : Option (BoundedNumeral limit))
    (h : (numeralChars n).head? = some '0') :
    ∃ m : Option (BoundedNumeral limit), numeralChars n = '0' :: numeralChars m := by
  match n with
  | none => cases h
  | some n =>
    obtain ⟨cs, hcs⟩ : ∃ cs, n.chars = '0' :: cs := List.head?_eq_some_iff.1 h
    show ∃ m, n.chars = _
    rw [hcs]
    cases cs with
    | nil => exact ⟨none, rfl⟩
    | cons c cs =>
      have hdigits : Json.Read.Digits (c :: cs) := fun d hd =>
        n.digits d (hcs ▸ List.mem_cons_of_mem _ hd)
      have hle : natOfChars (c :: cs) ≤ limit := by
        have hle := n.le
        rw [hcs, natOfChars_cons] at hle
        simpa [digitValue] using hle
      exact ⟨some ⟨c :: cs, List.cons_ne_nil _ _, hdigits, hle⟩, rfl⟩

theorem Parts.exists_zeroFirst (p : Parts) : ∃ q : Parts, q.ZeroFirst ∧ q.chars = p.chars := by
  by_cases hzero : p.zero = false ∧ (numeralChars p.width).head? = some '0'
  · obtain ⟨hfalse, hhead⟩ := hzero
    obtain ⟨w, hw⟩ := exists_numeral_of_zero p.width hhead
    refine ⟨{ p with zero := true, width := w }, (fun h => nomatch h), ?_⟩
    simp only [chars, fromSign, fromSymbol, fromZero, fromWidth, hfalse, hw]
    rfl
  · exact ⟨p, fun hfalse hhead => hzero ⟨hfalse, hhead⟩, rfl⟩

/-- **Accepted specifiers.** A text is accepted exactly if it has the form of a specifier. It then stands
for what its parts say, where a zero before the width is the flag. A refused text is given back. -/
theorem parse_iff (text : String) :
    ((∃ s, parse text = .ok s) ↔ ∃ p : Parts, p.chars = text.toList) ∧
      (∀ s, parse text = .ok s ↔ ∃ p : Parts, p.ZeroFirst ∧ p.chars = text.toList ∧ p.spec = s) ∧
      ∀ e, parse text = .error e → e.specifier = text := by
  have hspec (s : FormatSpec) :
      parse text = .ok s ↔ ∃ p : Parts, p.ZeroFirst ∧ p.chars = text.toList ∧ p.spec = s := by
    constructor
    · intro h
      unfold parse at h
      split at h
      · rename_i htake
        cases h
        obtain ⟨p, hzero, hp, hchars⟩ := exists_parts_of_take htake
        exact ⟨p, hzero, by rw [hchars, List.append_nil], hp⟩
      · cases h
    · rintro ⟨p, hzero, hchars, rfl⟩
      rw [parse, ← hchars, take_parts p hzero]
  refine ⟨⟨?_, ?_⟩, hspec, ?_⟩
  · rintro ⟨s, hs⟩
    obtain ⟨p, -, hchars, -⟩ := (hspec s).1 hs
    exact ⟨p, hchars⟩
  · rintro ⟨p, hchars⟩
    obtain ⟨q, hzero, hq⟩ := p.exists_zeroFirst
    exact ⟨q.spec, (hspec q.spec).2 ⟨q, hzero, hq.trans hchars, rfl⟩⟩
  · intro e h
    unfold parse at h
    split at h <;> cases h
    rfl

/-- The first zero is the flag, and the second one belongs to the width. -/
example : (parse "*^+$0010,.2~f").toOption = some
    { fill := '*', align := .center, sign := .plus, symbol := some .currency, zero := true,
      width := some 10, comma := true, precision := some 2, trim := true, kind := some 'f' } := by
  decide

end FormatSpec

end ChartTemplate
