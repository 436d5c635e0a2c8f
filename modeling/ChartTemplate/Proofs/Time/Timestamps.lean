import ChartTemplate.Proofs.Time.Instants
import ChartTemplate.Proofs.Value.Passed

/-!
# Timestamps

The text of an instant of whole milliseconds in a year of four digits is read back as that instant, leap
seconds included (`Instant.ofIso?_isoText`). So an instant is kept where a document holds its text. The
pattern of timestamps writes that text too, but for a leap second it writes the second before.
-/

namespace ChartTemplate

open Json.Read (Digits)

/-! ## Padded numbers -/

theorem length_digitsRev_le {n width : ℕ} (h : n < 10 ^ width) : (digitsRev n).length ≤ width := by
  induction width generalizing n with
  | zero =>
    have hn : n = 0 := by omega
    rw [hn, digitsRev]
    rfl
  | succ width ih =>
    rw [digitsRev]
    split
    · exact Nat.zero_le _
    · rw [pow_succ] at h
      exact Nat.succ_le_succ (ih (by omega))

theorem length_natChars_le {n width : ℕ} (hwidth : 0 < width) (h : n < 10 ^ width) :
    (natChars n).length ≤ width := by
  rw [natChars, digitChars, List.length_map, digitsOf]
  split
  · exact hwidth
  · rw [List.length_reverse]
    exact length_digitsRev_le h

theorem length_paddedNat {n width : ℕ} (hwidth : 0 < width) (h : n < 10 ^ width) :
    (paddedNat width n).length = width := by
  have hle := length_natChars_le hwidth h
  rw [paddedNat, List.length_append, zeros, List.length_replicate]
  omega

theorem natOfChars_paddedNat (width n : ℕ) : natOfChars (paddedNat width n) = n := by
  rw [paddedNat, natOfChars_zeros_append, natOfChars_natChars]

/-! ## Reading -/

namespace Iso

theorem digits?_append {least most : ℕ} {ds r : List Char} (hds : Digits ds) (hleast : least ≤ ds.length)
    (hmost : ds.length ≤ most) (hrest : ds.length < most → ∀ c ∈ r.head?, c.isDigit = false) :
    digits? least most (ds ++ r) = some (natOfChars ds, r) := by
  have htake : ((ds ++ r).take most).takeWhile Char.isDigit = ds := by
    rw [List.take_append, List.take_of_length_le hmost, List.takeWhile_append_of_pos hds]
    rcases hmost.eq_or_lt with heq | hlt
    · rw [heq, Nat.sub_self, List.take_zero, List.takeWhile_nil, List.append_nil]
    · obtain ⟨room, hroom⟩ := Nat.exists_eq_add_of_lt hlt
      cases r with
      | nil => simp
      | cons c r =>
        have hc := hrest hlt c rfl
        have hsub : most - ds.length = room + 1 := by omega
        rw [hsub, List.take_succ_cons, List.takeWhile_cons_of_neg (by simp [hc]), List.append_nil]
  unfold digits?
  simp only [htake]
  rw [if_neg (by omega), List.drop_left]

theorem digits?_paddedNat {n width : ℕ} (hwidth : 0 < width) (h : n < 10 ^ width) (r : List Char) :
    digits? width width (paddedNat width n ++ r) = some (n, r) := by
  have hlength := length_paddedNat hwidth h
  rw [digits?_append (digits_paddedNat width n) hlength.ge hlength.le (fun hlt => by omega),
    natOfChars_paddedNat]

theorem fraction?_paddedNat {n : ℕ} (h : n < 1000) :
    fraction? ('.' :: paddedNat 3 n ++ ['Z']) = some (n * 1000000, ['Z']) := by
  have hlength : (paddedNat 3 n).length = 3 := length_paddedNat (by decide) h
  have hdigits : digits? 1 9 (paddedNat 3 n ++ ['Z']) = some (n, ['Z']) := by
    rw [digits?_append (digits_paddedNat 3 n) (by omega) (by omega) (fun _ c hc => by cases hc; rfl),
      natOfChars_paddedNat]
  rw [List.cons_append, fraction?, nanos?, hdigits]
  simp [hlength]

theorem char?_cons (c : Char) (r : List Char) : char? c (c :: r) = some r := by
  rw [char?, beq_self_eq_true, if_pos rfl]

theorem fixed?_spelled {year month day hour minute second millis : ℕ} (hyear : year < 10000)
    (hmonth : month < 100) (hday : day < 100) (hhour : hour < 100) (hminute : minute < 100)
    (hsecond : second < 100) (hmillis : millis < 1000) :
    fixed? (paddedNat 4 year ++ '-' :: paddedNat 2 month ++ '-' :: paddedNat 2 day ++ 'T' :: paddedNat 2 hour ++
        ':' :: paddedNat 2 minute ++ ':' :: paddedNat 2 second ++ '.' :: paddedNat 3 millis ++ ['Z']) =
      (Date.ofParts? year month day).bind fun d => instant? d hour minute second (millis * 1000000) 0 := by
  have htwo {n : ℕ} (h : n < 100) (r : List Char) : digits? 2 2 (paddedNat 2 n ++ r) = some (n, r) :=
    digits?_paddedNat (by decide) h r
  have hfraction := fraction?_paddedNat hmillis
  rw [List.cons_append] at hfraction
  simp only [List.append_assoc, List.cons_append]
  rw [fixed?, digits?_paddedNat (by decide) hyear]
  dsimp only [Option.bind_eq_bind, Option.bind_some]
  rw [char?_cons, Option.bind_some, htwo hmonth, Option.bind_some]
  dsimp only
  rw [char?_cons, Option.bind_some, htwo hday, Option.bind_some]
  dsimp only
  rw [if_pos (by decide), htwo hhour, Option.bind_some]
  dsimp only
  rw [char?_cons, Option.bind_some, htwo hminute, Option.bind_some]
  dsimp only
  rw [char?_cons, Option.bind_some, htwo hsecond, Option.bind_some]
  dsimp only
  rw [hfraction]
  rfl

end Iso

/-! ## Texts of instants -/

namespace Instant

/-- An instant of whole milliseconds in a year of four digits. A leap second is the last one of a
minute. -/
structure IsWritable (t : Instant) : Prop where
  year : 0 ≤ t.date.year ∧ t.date.year ≤ 9999
  millis : 1000000 ∣ t.nanos
  nanos : t.nanos < 1000000000 ∨ t.second = 59 ∧ t.nanos < 2000000000

theorem valid_date (t : Instant) : t.date.Valid :=
  Date.valid_ofDays t.dayNumber

theorem seconds_eq (t : Instant) : t.hour < 24 ∧ t.minute < 60 ∧ t.second < 60 ∧
    t.seconds = t.date.toDays * 86400 + (t.hour * 3600 + t.minute * 60 + t.second : ℕ) := by
  have hday : t.date.toDays = t.dayNumber := Date.toDays_ofDays _
  rw [hday]
  simp only [hour, minute, second, secondOfDay, dayNumber]
  omega

theorem ofSeconds?_of_year {t : Instant} (hmin : minYear ≤ t.date.year) (hmax : t.date.year ≤ maxYear) :
    ofSeconds? t.seconds t.nanos = some t := by
  have hday : t.date.toDays = t.dayNumber := Date.toDays_ofDays _
  have hrange := (Date.inRange_toDays_iff t.valid_date).2 ⟨hmin, hmax⟩
  rw [hday] at hrange
  exact if_pos hrange

variable {t : Instant}

/-- The second as it is written: after the others of the minute in a leap second. -/
def writtenSecond (t : Instant) : ℕ :=
  if 1000000000 ≤ t.nanos then t.second + 1 else t.second

def writtenNanos (t : Instant) : ℕ :=
  if 1000000000 ≤ t.nanos then t.nanos - 1000000000 else t.nanos

theorem writtenSecond_le (t : Instant) : t.writtenSecond ≤ 60 := by
  obtain ⟨-, -, hsecond, -⟩ := t.seconds_eq
  unfold writtenSecond
  split <;> omega

theorem writtenNanos_lt (h : t.IsWritable) : t.writtenNanos < 1000000000 := by
  have hnanos := h.nanos
  unfold writtenNanos
  split <;> omega

theorem fixed?_isoChars (h : t.IsWritable) : Iso.fixed? t.isoChars =
    Iso.instant? t.date t.hour t.minute t.writtenSecond (t.writtenNanos / 1000000 * 1000000) 0 := by
  obtain ⟨hhour, hminute, -, -⟩ := t.seconds_eq
  obtain ⟨hmin, hmax⟩ := h.year
  have hvalid := t.valid_date
  have hmonth := hvalid.month_le
  have hday := hvalid.day_le.trans (Date.daysInMonth_le _ _)
  have hsecond := t.writtenSecond_le
  have hnanos := t.writtenNanos_lt h
  have hyear : (t.date.year.toNat : ℤ) = t.date.year := Int.toNat_of_nonneg hmin
  have hdate : Date.ofParts? t.date.year.toNat t.date.month t.date.day = some t.date := by
    rw [hyear]
    exact Date.ofParts?_of_valid hvalid (by unfold minYear; omega) (by unfold maxYear; omega)
  have hchars : t.isoChars = paddedNat 4 t.date.year.toNat ++ '-' :: paddedNat 2 t.date.month ++
      '-' :: paddedNat 2 t.date.day ++ 'T' :: paddedNat 2 t.hour ++ ':' :: paddedNat 2 t.minute ++
      ':' :: paddedNat 2 t.writtenSecond ++ '.' :: paddedNat 3 (t.writtenNanos / 1000000) ++ ['Z'] := by
    unfold isoChars yearChars
    dsimp only
    rw [if_pos h.year]
    rfl
  rw [hchars, Iso.fixed?_spelled (by omega) (by omega) (by omega) (by omega) (by omega) (by omega) (by omega),
    hdate, Option.bind_some]

theorem instant?_parts (h : t.IsWritable) :
    Iso.instant? t.date t.hour t.minute t.writtenSecond (t.writtenNanos / 1000000 * 1000000) 0 = some t := by
  obtain ⟨hhour, hminute, hsecond, hseconds⟩ := t.seconds_eq
  obtain ⟨hmin, hmax⟩ := h.year
  obtain ⟨millis, hmillis⟩ := h.millis
  have hinstant : ofSeconds? t.seconds t.nanos = some t :=
    ofSeconds?_of_year (by unfold minYear; omega) (by unfold maxYear; omega)
  have hle := t.writtenSecond_le
  rw [Iso.instant?, if_pos (by omega)]
  unfold writtenSecond writtenNanos
  by_cases hleap : 1000000000 ≤ t.nanos
  · obtain ⟨hlast, hlt⟩ := h.nanos.resolve_left (by omega)
    have hrest : (t.nanos - 1000000000) / 1000000 * 1000000 + 1000000000 = t.nanos := by omega
    rw [if_pos hleap, if_pos hleap, if_pos (by omega), hrest, ← hlast]
    dsimp only
    rw [sub_zero, ← hseconds]
    exact hinstant
  · have hrest : t.nanos / 1000000 * 1000000 = t.nanos := by omega
    rw [if_neg hleap, if_neg hleap, if_neg (by omega), hrest]
    dsimp only
    rw [sub_zero, ← hseconds]
    exact hinstant

/-- **Reading the text of an instant** gives the instant. -/
theorem IsWritable.ofIso?_isoText (h : t.IsWritable) : ofIso? t.isoText = some t := by
  rw [ofIso?, isoText, String.toList_ofList, fixed?_isoChars h, instant?_parts h, Option.some_or,
    Option.some_or]

end Instant

/-! ## The pattern of timestamps -/

namespace DatePattern

def timestamp : DatePattern :=
  ofText "%Y-%m-%dT%H:%M:%S.%LZ"

theorem pieces_timestamp : timestamp.pieces =
    [.directive 'Y' none, .literal '-', .directive 'm' none, .literal '-', .directive 'd' none, .literal 'T',
      .directive 'H' none, .literal ':', .directive 'M' none, .literal ':', .directive 'S' none, .literal '.',
      .directive 'L' none, .literal 'Z'] := by
  have htext : "%Y-%m-%dT%H:%M:%S.%LZ".toList = ['%', 'Y', '-', '%', 'm', '-', '%', 'd', 'T', '%', 'H', ':',
      '%', 'M', ':', '%', 'S', '.', '%', 'L', 'Z'] := rfl
  rw [timestamp, ofText, htext]
  simp [scan, PadMark.ofChar?, pieceOf]

theorem padded_zero (n width : ℕ) : padded n none '0' width = paddedNat width n := by
  have hsign : ¬ (n : ℤ) < 0 := by omega
  simp only [padded, if_neg hsign, Int.natAbs_natCast, List.nil_append, paddedNat, zeros]

/-- **The pattern of timestamps** writes the text of the instant without its leap second. -/
theorem format_timestamp {t : Instant} (hyear : 0 ≤ t.date.year ∧ t.date.year ≤ 9999) :
    timestamp.format t = Instant.isoText ⟨t.seconds, t.nanos % 1000000000⟩ := by
  have hy : ((t.date.year.toNat : ℕ) : ℤ) = t.date.year := Int.toNat_of_nonneg hyear.1
  have hmillis : t.nanos / 1000000 % 1000 = t.nanos % 1000000000 / 1000000 := by omega
  have hno : ¬ 1000000000 ≤ t.nanos % 1000000000 := by omega
  have hyearChars : Instant.yearChars t.date.year = padded t.date.year none '0' 4 := by
    rw [Instant.yearChars, if_pos hyear, ← padded_zero, hy]
  rw [format, pieces_timestamp, Instant.isoText, Instant.isoChars]
  dsimp only
  rw [if_neg hno, if_neg hno]
  simp only [List.flatMap_cons, List.flatMap_nil, pieceChars, directiveChars?, Instant.shift_zero,
    Option.getD_some, padded_zero, hmillis, ← hyearChars, List.append_assoc, List.cons_append, List.nil_append]
  rfl

end DatePattern

/-! ## Instants that are kept as texts -/

namespace Instant

variable {t : Instant}

theorem IsWritable.withoutLeap (h : t.IsWritable) : (⟨t.seconds, t.nanos % 1000000000⟩ : Instant).IsWritable := by
  have hmillis := h.millis
  refine ⟨h.year, ?_, .inl (Nat.mod_lt _ (by decide))⟩
  show 1000000 ∣ t.nanos % 1000000000
  omega

theorem IsWritable.format_eq_iff (h : t.IsWritable) :
    DatePattern.timestamp.format t = t.isoText ↔ t.nanos < 1000000000 := by
  rw [DatePattern.format_timestamp h.year]
  constructor
  · intro heq
    -- the texts of two instants differ, since both are read back
    have hsame : (⟨t.seconds, t.nanos % 1000000000⟩ : Instant) = t :=
      Option.some.inj (h.withoutLeap.ofIso?_isoText.symm.trans (heq ▸ h.ofIso?_isoText))
    have hnanos : t.nanos % 1000000000 = t.nanos := congrArg Instant.nanos hsame
    omega
  · intro hlt
    rw [Nat.mod_eq_of_lt hlt]

theorem parse?_compress_date (t : Instant) :
    Json.parse? (Cell.date t).toJson.compress = some (.str t.isoText) := by
  rw [Json.parse?, Json.compress, String.toList_ofList]
  exact Json.parseChars?_chars (j := .str t.isoText) trivial

/-- **Instants as texts.** An instant of whole milliseconds in a year of four digits is read back from its
text, from the document that is passed to another helper, and from the text of a cell in a chart. The
pattern of timestamps writes it without its leap second, so that it writes the same text exactly if there
is none. -/
theorem kept_as_text (h : t.IsWritable) :
    ofIso? t.isoText = some t ∧
      (Value.passed (.date t)).toInstant? = some t ∧
      (∃ j, Json.parse? (Cell.date t).toJson.compress = some j ∧ (Value.ofJson j).toInstant? = some t) ∧
      DatePattern.timestamp.format t = isoText ⟨t.seconds, t.nanos % 1000000000⟩ ∧
      (DatePattern.timestamp.format t = t.isoText ↔ t.nanos < 1000000000) := by
  have hread := h.ofIso?_isoText
  refine ⟨hread, ?_, ⟨_, parse?_compress_date t, hread⟩, DatePattern.format_timestamp h.year, h.format_eq_iff⟩
  rw [Value.passed_date]
  exact hread

/-- In the middle of a leap second. -/
theorem kept_as_text_leapSecond :
    let t : Instant := ⟨1483228799, 1500000000⟩
    t.isoText = "2016-12-31T23:59:60.500Z" ∧ ofIso? "2016-12-31T23:59:60.500Z" = some t ∧
      DatePattern.timestamp.format t = "2016-12-31T23:59:59.500Z" := by
  intro t
  have htext : t.isoText = "2016-12-31T23:59:60.500Z" := by decide +kernel
  obtain ⟨hread, -, -, hformat, -⟩ := kept_as_text (t := t) ⟨by decide, by decide, by decide⟩
  refine ⟨htext, htext ▸ hread, ?_⟩
  rw [hformat]
  decide +kernel

/-- In a leap second the pattern writes the second before. -/
theorem format_leapSecond :
    let t : Instant := ⟨1483228799, 1000000000⟩
    t.IsWritable ∧ t.isoText = "2016-12-31T23:59:60.000Z" ∧
      DatePattern.timestamp.format t = "2016-12-31T23:59:59.000Z" ∧
      DatePattern.timestamp.format t ≠ t.isoText := by
  intro t
  have htext : t.isoText = "2016-12-31T23:59:60.000Z" := by decide +kernel
  have hformat : DatePattern.timestamp.format t = "2016-12-31T23:59:59.000Z" := by
    rw [DatePattern.format_timestamp (by decide)]
    decide +kernel
  refine ⟨⟨by decide, by decide, by decide⟩, htext, hformat, ?_⟩
  rw [htext, hformat]
  decide

end Instant

end ChartTemplate
