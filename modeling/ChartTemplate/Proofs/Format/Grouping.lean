import ChartTemplate.Proofs.Format.CutOff
import Mathlib.Data.Int.Interval

/-!
# Grouped digits

Without a limit the groups hold all digits. A limit is there to leave out padding, but the groups end
where the text is full, whatever is left (`flatten_groupsRev_some`): where zeros are added to a number
whose digits do not fit with their commas, the first digits are lost. `NumberFormat.format_grouped` :
these are the only ones.
-/

namespace ChartTemplate

/-! ## Groups -/

/-- How many characters are put into groups where there is room for `room` characters and commas. -/
def groupRoom (room : Nat) : Nat :=
  3 * (room / 4) + max (room % 4) 1

theorem groupRoom_eq (room : Nat) :
    groupRoom room = if room < 4 then max room 1 else 3 + groupRoom (room - 4) := by
  unfold groupRoom
  split <;> omega

theorem flatten_groupsRev_none (length : Nat) (rev : List Char) :
    (groupsRev none length rev).reverse.flatten = rev.reverse := by
  fun_induction groupsRev none length rev with
  | case1 => rfl
  | case2 length c cs size rest next more ih =>
    rw [if_pos rfl, List.reverse_cons, List.flatten_append, ih, List.flatten_singleton,
      ← List.reverse_append]
    exact congrArg List.reverse (List.take_append_drop 3 (c :: cs))

theorem flatten_groupsRev_some {w length : Nat} (rev : List Char) (hle : length ≤ w) :
    (groupsRev (some w) length rev).reverse.flatten = (rev.take (groupRoom (w - length))).reverse := by
  fun_induction groupsRev (some w) length rev with
  | case1 => rw [List.take_nil]; rfl
  | case2 length c cs size rest next more ih =>
    rw [groupRoom_eq, List.reverse_cons, List.flatten_append, List.flatten_singleton]
    by_cases hroom : w - length < 4
    · -- the last group
      have hsize : size = max (w - length) 1 := if_pos (by omega)
      have hmore : more = false := decide_eq_false (by omega)
      rw [if_neg (by rw [hmore]; exact Bool.false_ne_true), if_pos hroom, hsize]
      rfl
    · have hsize : size = 3 := if_neg (by omega)
      have hnext : next = length + 4 := by omega
      have hmore : more = true := decide_eq_true (by omega)
      have hrest : rest = (c :: cs).drop 3 := by
        show cs.drop (size - 1) = _
        rw [hsize]
        rfl
      rw [if_pos hmore, ih (by omega), if_neg hroom, ← List.reverse_append, hnext, hsize, hrest,
        List.take_add, Nat.sub_sub]

def withoutCommas (cs : List Char) : List Char :=
  cs.filter (· ≠ ',')

theorem withoutCommas_append (cs ds : List Char) :
    withoutCommas (cs ++ ds) = withoutCommas cs ++ withoutCommas ds :=
  List.filter_append ..

theorem withoutCommas_of_not_mem {cs : List Char} (h : ',' ∉ cs) : withoutCommas cs = cs :=
  List.filter_eq_self.2 fun _ hc => decide_eq_true fun hcomma => h (hcomma ▸ hc)

theorem withoutCommas_joinChars (ts : List (List Char)) :
    withoutCommas (joinChars [','] ts) = withoutCommas ts.flatten := by
  induction ts using joinChars.induct with
  | case1 => rfl
  | case2 t => rw [joinChars, List.flatten_singleton]
  | case3 t ts hts ih =>
    rw [joinChars, withoutCommas_append, withoutCommas_append, ih, List.flatten_cons,
      withoutCommas_append]
    · rw [show withoutCommas [','] = [] from rfl, List.append_nil]
    · exact hts

theorem withoutCommas_group_none {cs : List Char} (h : ',' ∉ cs) : withoutCommas (group none cs) = cs := by
  rw [group, withoutCommas_joinChars, flatten_groupsRev_none, List.reverse_reverse,
    withoutCommas_of_not_mem h]

theorem withoutCommas_group_some {cs : List Char} (h : ',' ∉ cs) (w : Nat) :
    withoutCommas (group (some w) cs) = cs.drop (cs.length - groupRoom w) := by
  rw [group, withoutCommas_joinChars, flatten_groupsRev_some _ (Nat.zero_le w), List.take_reverse,
    List.reverse_reverse, Nat.sub_zero]
  exact withoutCommas_of_not_mem fun hmem => h (List.mem_of_mem_drop hmem)

/-! ## Digits in front of the point -/

theorem trimZeros_of_not_mem {cs : List Char} (h : '.' ∉ cs) : trimZeros none cs = cs := by
  induction cs with
  | nil => rfl
  | cons c cs ih =>
    obtain ⟨hc, hcs⟩ := not_or.1 (List.mem_cons.not.1 h)
    rw [trimZeros, if_neg (Ne.symm hc), Option.map_none, ih hcs]
    split
    · rfl
    · split <;> rfl

theorem trimInsignificant_of_not_mem {cs : List Char} (h : '.' ∉ cs) : trimInsignificant cs = cs := by
  cases cs with
  | nil => rfl
  | cons c cs =>
    rw [trimInsignificant, trimZeros_of_not_mem fun hmem => h (List.mem_cons_of_mem c hmem)]

theorem takeWhile_trimZeros_point (z cs : List Char) :
    (trimZeros (some ('.' :: z)) cs).takeWhile Char.isDigit = [] := by
  induction cs generalizing z with
  | nil => rfl
  | cons c cs ih =>
    rw [trimZeros]
    split
    · rfl
    · split
      · exact ih _
      · split
        · rfl
        · rename_i hdigit
          exact List.takeWhile_cons_of_neg hdigit

theorem takeWhile_trimZeros (cs : List Char) :
    (trimZeros none cs).takeWhile Char.isDigit = cs.takeWhile Char.isDigit := by
  induction cs with
  | nil => rfl
  | cons c cs ih =>
    rw [trimZeros]
    split
    · rename_i hpoint
      rw [hpoint]
      exact takeWhile_trimZeros_point [] cs
    · split
      · rename_i hzero
        rw [hzero, List.takeWhile_cons_of_pos rfl, List.takeWhile_cons_of_pos rfl, ih]
      · split
        · rename_i hdigit
          rw [Option.getD_none, List.nil_append, Option.map_none, List.takeWhile_cons_of_pos hdigit,
            List.takeWhile_cons_of_pos hdigit, ih]
        · rfl

theorem takeWhile_trimInsignificant (cs : List Char) :
    (trimInsignificant cs).takeWhile Char.isDigit = cs.takeWhile Char.isDigit := by
  cases cs with
  | nil => rfl
  | cons c cs => rw [trimInsignificant, List.takeWhile_cons, List.takeWhile_cons, takeWhile_trimZeros]

theorem lt_of_mem_baseDigitsRev {base n d : Nat} (h : d ∈ baseDigitsRev base n) : d < base := by
  fun_induction baseDigitsRev base n with
  | case1 => cases h
  | case2 n hn ih =>
    rcases List.mem_cons.1 h with rfl | h
    · exact Nat.mod_lt n (by omega)
    · exact ih h

theorem isAlphanum_baseDigitChar : ∀ upper, ∀ d < 16, (baseDigitChar upper d).isAlphanum = true := by
  decide

theorem isAlphanum_of_mem_baseChars {base : Nat} (hbase : base ≤ 16) {upper : Bool} {n : Nat} {c : Char}
    (h : c ∈ baseChars base upper n) : c.isAlphanum = true := by
  unfold baseChars at h
  split at h
  · rw [List.mem_singleton.1 h]
    rfl
  · obtain ⟨d, hd, rfl⟩ := List.mem_map.1 h
    exact isAlphanum_baseDigitChar upper d
      ((lt_of_mem_baseDigitsRev (List.mem_reverse.1 hd)).trans_le hbase)

namespace NumberStyle

variable {style : NumberStyle} {x : Float} {precision : Nat} {text : List Char} {e : Int}

theorem isAlphanum_of_chars (hcharacter : style ≠ .character) (hsuffix : style.splitsSuffix = false)
    (h : style.chars x precision = .ok (text, e)) {c : Char} (hc : c ∈ text) : c.isAlphanum = true := by
  cases style with
  | binary | octal | hexLower | hexUpper =>
    cases h
    exact isAlphanum_of_mem_baseChars (by decide) hc
  | character => exact absurd rfl hcharacter
  | _ => cases hsuffix

theorem whole_trimInsignificant (hcharacter : style ≠ .character)
    (h : style.chars x precision = .ok (text, e)) :
    style.whole (trimInsignificant text) = style.whole text := by
  unfold whole
  split
  · exact takeWhile_trimInsignificant text
  · rename_i hsuffix
    refine trimInsignificant_of_not_mem fun hpoint => ?_
    cases isAlphanum_of_chars hcharacter (Bool.eq_false_iff.2 hsuffix) h hpoint

theorem comma_not_mem_whole (hcharacter : style ≠ .character)
    (h : style.chars x precision = .ok (text, e)) : ',' ∉ style.whole text := by
  unfold whole
  intro hcomma
  split at hcomma
  · cases List.mem_takeWhile_imp hcomma
  · rename_i hsuffix
    cases isAlphanum_of_chars hcharacter (Bool.eq_false_iff.2 hsuffix) h hcomma

end NumberStyle

namespace NumberFormat

variable {fmt : NumberFormat} {x : Float} {p : Pieces}

/-- The digits in front of the point that the formatter of the type gives for a number. Plain text is
not asked of it, and has none to be grouped. -/
def whole (fmt : NumberFormat) (x : Float) : Except Fault (List Char) :=
  if fmt.style = .character then .ok []
  else (fmt.style.chars x.abs fmt.precision).map fun written => fmt.style.whole written.1

theorem whole_eq_of_pieces (hnan : x.isNaN = false) (h : fmt.pieces x = .ok p) :
    fmt.whole x = .ok p.body ∧ ',' ∉ p.body := by
  rw [pieces_eq, hnan, if_neg Bool.false_ne_true] at h
  unfold whole
  split at h
  · rename_i hcharacter
    cases h
    exact ⟨if_pos hcharacter, List.not_mem_nil⟩
  · rename_i hcharacter
    rw [if_neg hcharacter]
    cases hchars : fmt.style.chars x.abs fmt.precision with
    | error f => rw [hchars] at h; cases h
    | ok written =>
      rw [hchars] at h
      have hbody : p.body = fmt.style.whole written.1 := by
        rw [← Except.ok.inj h, cut]
        dsimp only
        split
        · exact NumberStyle.whole_trimInsignificant hcharacter hchars
        · rfl
      exact ⟨congrArg Except.ok hbody.symm, hbody ▸ NumberStyle.comma_not_mem_whole hcharacter hchars⟩

/-! ## Padding -/

/-- In the text the grouped digits stand between the lead and the tail of the pieces. Around these is
the padding, but for zeros that are grouped with the digits. -/
def Frames (spec : FormatSpec) (p : Pieces) (grouped text : List Char) : Prop :=
  ∃ i j k, (spec.zero = true → i = 0 ∧ j = 0 ∧ k = 0) ∧
    text = List.replicate i spec.fill ++ p.lead ++ List.replicate j spec.fill ++ grouped ++ p.tail ++
      List.replicate k spec.fill

/-- Without its commas the grouped part is the digits, behind zeros of the padding. -/
def Shows (spec : FormatSpec) (digits grouped : List Char) : Prop :=
  ∃ k, (spec.zero = false → k = 0) ∧ withoutCommas grouped = zeros k ++ digits

/-- Zeros are put in front of a number that is shorter than the width, and in what the tail leaves of
the width there is no room for all of its digits and their commas. -/
structure Crowded (spec : FormatSpec) (p : Pieces) : Prop where
  zero : spec.zero = true
  padded : p.lead.length + p.body.length + p.tail.length < spec.width.getD 0
  full : groupRoom (spec.width.getD 0 - p.tail.length) < p.body.length

/-- The digits with their commas, and with the zeros that are grouped with them. -/
def grouped (spec : FormatSpec) (p : Pieces) : List Char :=
  let width := spec.width.getD 0
  let length := p.lead.length + p.body.length + p.tail.length
  if spec.zero then
    group (if length < width then some (width - p.tail.length) else none)
      (List.replicate (width - length) spec.fill ++ p.body)
  else group none p.body

theorem frames_assemble {spec : FormatSpec} (hcomma : spec.comma = true) (p : Pieces) :
    Frames spec p (grouped spec p) (assemble spec p) := by
  unfold assemble grouped
  rw [hcomma]
  cases hzero : spec.zero with
  | true =>
    -- the zeros are grouped with the digits, and no padding is left
    refine ⟨0, 0, 0, fun _ => ⟨rfl, rfl, rfl⟩, ?_⟩
    have hlimit (width length limit : Nat) :
        (if width - length = 0 then none else some limit) =
          if length < width then some limit else none := by
      split <;> split <;> first | rfl | omega
    cases spec.align <;> simp [hlimit]
  | false =>
    have hspace {P : Prop} (h : false = true) : P := Bool.noConfusion h
    let n := spec.width.getD 0 - (p.lead.length + (group none p.body).length + p.tail.length)
    rw [Frames, hzero]
    cases spec.align with
    | left => exact ⟨0, 0, n, hspace, by simp [n]⟩
    | right => exact ⟨n, 0, 0, hspace, by simp [n]⟩
    | afterSign => exact ⟨0, n, 0, hspace, by simp [n]⟩
    | center => exact ⟨min (n / 2) n, 0, n - n / 2, hspace, by simp [n]⟩

theorem drop_padded_iff (n room : Nat) (digits : List Char) :
    (∃ k, (zeros n ++ digits).drop (n + digits.length - room) = zeros k ++ digits) ↔
      digits.length ≤ room := by
  constructor
  · rintro ⟨k, hk⟩
    have hlength := congrArg List.length hk
    simp only [zeros, List.length_drop, List.length_append, List.length_replicate] at hlength
    omega
  · intro hfits
    refine ⟨n - (n + digits.length - room), ?_⟩
    rw [zeros, List.drop_append_of_le_length (by rw [List.length_replicate]; omega), List.drop_replicate]
    rfl

theorem shows_grouped_iff {spec : FormatSpec} (hfill : spec.zero = true → spec.fill = '0')
    (hcomma : ',' ∉ p.body) : Shows spec p.body (grouped spec p) ↔ ¬ Crowded spec p := by
  unfold Shows
  cases hzero : spec.zero with
  | false =>
    have hspace : ¬ Crowded spec p := fun h => by cases hzero.symm.trans h.zero
    refine iff_of_true ⟨0, fun _ => rfl, ?_⟩ hspace
    rw [grouped, hzero]
    exact withoutCommas_group_none hcomma
  | true =>
    unfold grouped
    rw [hzero, if_pos rfl, hfill hzero]
    generalize hn : spec.width.getD 0 - (p.lead.length + p.body.length + p.tail.length) = n
    split
    · rename_i hlt
      have hpadded : ',' ∉ zeros n ++ p.body := fun h =>
        (List.mem_append.1 h).elim (fun h => by cases (List.mem_replicate.1 h).2) hcomma
      have hcrowded : ¬ Crowded spec p ↔
          p.body.length ≤ groupRoom (spec.width.getD 0 - p.tail.length) :=
        ⟨fun h => not_lt.1 fun hfull => h ⟨hzero, hlt, hfull⟩, fun h hfull => not_lt.2 h hfull.full⟩
      rw [hcrowded, ← drop_padded_iff n]
      have hlength : (zeros n ++ p.body).length = n + p.body.length := by simp [zeros]
      show (∃ k, _ ∧ withoutCommas (group (some _) (zeros n ++ p.body)) = _) ↔ _
      simp [withoutCommas_group_some hpadded, hlength]
    · rename_i hlt
      obtain rfl : n = 0 := by omega
      exact iff_of_true ⟨0, fun _ => rfl, withoutCommas_group_none hcomma⟩ fun h => hlt h.padded

/-! ## Formats -/

inductive Made : NumberFormat → Prop
  | ofSpec (spec : FormatSpec) : Made (ofSpec spec)
  | withThousands (spec : FormatSpec) (reference : Float) : Made (withThousands spec reference)

theorem fill_ofSpec {spec : FormatSpec} (h : (ofSpec spec).spec.zero = true) :
    (ofSpec spec).spec.fill = '0' :=
  if_pos h

theorem isFinite_unitFactor :
    ∀ q ∈ Finset.Icc (-8 : Int) 8, (powInt 10 (-(q * 3))).isFinite = true := by
  decide +kernel

namespace Made

theorem fill (hmade : fmt.Made) (hzero : fmt.spec.zero = true) : fmt.spec.fill = '0' := by
  cases hmade with
  | ofSpec spec => exact fill_ofSpec hzero
  | withThousands spec reference => exact fill_ofSpec hzero

theorem isNaN_scaled (hmade : fmt.Made) (hx : x.isFinite = true) : (fmt.scaled x).isNaN = false := by
  cases hmade with
  | ofSpec spec => exact ((isFinite_iff x).1 hx).1
  | withThousands spec reference =>
    exact isNaN_mul (isFinite_unitFactor _ (by rw [Finset.mem_Icc]; omega)) hx

theorem not_cutOff (hmade : fmt.Made) (hx : x.isFinite = true) : ¬ fmt.CutOff x := by
  intro h
  cases hmade with
  | ofSpec spec => cases h.infinite.symm.trans ((isFinite_iff x).1 hx).2
  | withThousands spec reference => exact not_cutOff_withThousands spec reference x h

end Made

/-- What is written behind a number in units that are fixed. -/
def unitChars (fmt : NumberFormat) : List Char :=
  match fmt.unit with
  | some (_, name) => name.toList
  | none => []

theorem format_eq (fmt : NumberFormat) (x : Float) :
    fmt.format x = (fmt.pieces (fmt.scaled x)).map fun p =>
      String.ofList (assemble fmt.spec p ++ fmt.unitChars) := by
  unfold format scaled unitChars formatUnscaled
  cases fmt.unit with
  | none =>
    dsimp only
    simp only [List.append_nil]
    cases fmt.pieces x <;> rfl
  | some unit =>
    dsimp only
    cases fmt.pieces (unit.1 * x) <;> rfl

/-- **Grouping.** In a format with the comma flag, every finite number is written with the digits in
front of the point, grouped, between what leads them and their tail. These are all digits that the
formatter gives for the number, in order and perhaps behind zeros, exactly if they fit where zeros are
put in front of them. -/
theorem format_grouped (hmade : fmt.Made) (hcomma : fmt.spec.comma = true) (hx : x.isFinite = true) :
    ∃ p digits text,
      fmt.pieces (fmt.scaled x) = .ok p ∧ fmt.whole (fmt.scaled x) = .ok p.body ∧
      Frames fmt.spec p digits text ∧
      fmt.format x = .ok (String.ofList (text ++ fmt.unitChars)) ∧
      (Shows fmt.spec p.body digits ↔ ¬ Crowded fmt.spec p) := by
  cases hpieces : fmt.pieces (fmt.scaled x) with
  | error f =>
    refine absurd ((cutOff_iff fmt x).2 ?_) (hmade.not_cutOff hx)
    obtain ⟨hstyle, hprecision, hinf, -⟩ := (pieces_eq_error_iff fmt _).1 hpieces
    exact ⟨hstyle, hprecision, hinf⟩
  | ok p =>
    obtain ⟨hwhole, hbody⟩ := whole_eq_of_pieces (hmade.isNaN_scaled hx) hpieces
    refine ⟨p, grouped fmt.spec p, assemble fmt.spec p, rfl, hwhole, frames_assemble hcomma p, ?_,
      shows_grouped_iff hmade.fill hbody⟩
    rw [format_eq, hpieces]
    rfl

/-- Groups in nine characters, with zeros in front. -/
def paddedSpec : FormatSpec :=
  { zero := true, width := some 9, comma := true, kind := some 'd' }

/-- Seven digits fit in nine characters. -/
theorem format_grouped_million :
    (ofSpec paddedSpec).spec.comma = true ∧ (1234567 : Float).isFinite = true ∧
    ∃ p digits text,
      (ofSpec paddedSpec).pieces ((ofSpec paddedSpec).scaled 1234567) = .ok p ∧
      (ofSpec paddedSpec).whole ((ofSpec paddedSpec).scaled 1234567) = .ok p.body ∧
      Frames (ofSpec paddedSpec).spec p digits text ∧
      (ofSpec paddedSpec).format 1234567 = .ok (String.ofList (text ++ (ofSpec paddedSpec).unitChars)) ∧
      (Shows (ofSpec paddedSpec).spec p.body digits ↔ ¬ Crowded (ofSpec paddedSpec).spec p) :=
  ⟨rfl, by decide, format_grouped (.ofSpec paddedSpec) rfl (by decide)⟩

/-- Eight digits do not, and the first one is lost. -/
theorem format_loses_digit :
    FormatSpec.parse "09,d" = .ok paddedSpec ∧
    (ofSpec paddedSpec).whole 12345678 = .ok "12345678".toList ∧
    (ofSpec paddedSpec).format 12345678 = .ok "2,345,678" := by
  decide +kernel

end NumberFormat

end ChartTemplate
