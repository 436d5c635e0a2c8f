import ChartTemplate.Numeric.Text
import ChartTemplate.Time.Iso

/-!
# Date patterns

A date pattern is a text in which a percent sign, perhaps a padding mark, and a letter stand for a
part of a date. `DatePattern.ofText` splits it into pieces, `DatePattern.format` writes an instant as
clocks show it that are ahead of universal time by a given number of seconds. Letters without a meaning
are written as they stand.
-/

namespace ChartTemplate

/-- How a number is padded, against the letter's own rule. -/
inductive PadMark where
  /-- Not at all. -/
  | bare
  /-- With spaces. -/
  | blank
  /-- With zeros. -/
  | zero
deriving DecidableEq, Repr

namespace PadMark

def ofChar? : Char → Option PadMark
  | '-' => some bare
  | '_' => some blank
  | '0' => some zero
  | _ => none

def char : PadMark → Char
  | bare => '-'
  | blank => '_'
  | zero => '0'

end PadMark

inductive DatePiece where
  /-- A character that stands for itself. -/
  | literal (c : Char)
  | directive (code : Char) (pad : Option PadMark)
deriving DecidableEq, Repr

structure DatePattern where
  pieces : List DatePiece
deriving DecidableEq, Repr

namespace DatePattern

/-- The piece of a directive. A doubled percent sign stands for itself. -/
def pieceOf (code : Char) (pad : Option PadMark) : DatePiece :=
  if code = '%' then .literal '%' else .directive code pad

def scan : List Char → List DatePiece
  | [] => []
  | ['%'] => [.literal '%']
  | '%' :: c :: cs =>
    match PadMark.ofChar? c with
    | none => pieceOf c none :: scan cs
    | some pad =>
      match cs with
      | [] => [.literal '%']
      | d :: ds => pieceOf d (some pad) :: scan ds
  | c :: cs => .literal c :: scan cs
termination_by cs => cs.length

def ofText (specifier : String) : DatePattern :=
  ⟨scan specifier.toList⟩

def weekdayNames : List String :=
  ["Sunday", "Monday", "Tuesday", "Wednesday", "Thursday", "Friday", "Saturday"]

def monthNames : List String :=
  ["January", "February", "March", "April", "May", "June", "July", "August", "September",
    "October", "November", "December"]

def weekdayName (d : Date) : List Char :=
  (weekdayNames.getD d.weekday "").toList

def monthName (d : Date) : List Char :=
  (monthNames.getD (d.month - 1) "").toList

/-- The digits of `n` padded to a width after its sign. The mark wins over the letter's fill. -/
def padded (n : Int) (mark : Option PadMark) (fill : Char) (width : Nat) : List Char :=
  match mark with
  | some .bare => intChars n
  | _ =>
    let fill := match mark with
      | some .blank => ' '
      | some .zero => '0'
      | _ => fill
    let ds := natChars n.natAbs
    (if n < 0 then ['-'] else []) ++ List.replicate (width - ds.length) fill ++ ds

def dialHour (t : Instant) : Nat :=
  if t.hour % 12 = 0 then 12 else t.hour % 12

def halfOfDay (t : Instant) : List Char :=
  (if t.hour < 12 then "AM" else "PM").toList

/-- Month, day and year with slashes. -/
def dateChars (d : Date) : List Char :=
  natChars d.month ++ '/' :: natChars d.day ++ '/' :: padded d.year none '0' 4

/-- Hour, minute and second on a dial of twelve. -/
def timeChars (t : Instant) : List Char :=
  natChars (dialHour t) ++ ':' :: padded t.minute none '0' 2 ++ ':' :: padded t.second none '0' 2 ++
    ' ' :: halfOfDay t

/-- How far clocks are ahead of universal time, as a sign, hours and minutes. -/
def offsetChars (offset : Int) : List Char :=
  let minutes := offset.tdiv 60
  (if minutes < 0 then '-' else '+') :: padded (minutes.natAbs / 60 : Nat) none '0' 2 ++
    padded (minutes.natAbs % 60 : Nat) none '0' 2

/-- The text of a letter for what clocks show at an instant, if the letter has a meaning. -/
def directiveChars? (code : Char) (pad : Option PadMark) (instant : Instant) (offset : Int) :
    Option (List Char) :=
  let t := instant.shift offset
  let d := t.date
  match code with
  | 'a' => some ((weekdayName d).take 3)
  | 'A' => some (weekdayName d)
  | 'b' | 'h' => some ((monthName d).take 3)
  | 'B' => some (monthName d)
  | 'c' => some (dateChars d ++ ',' :: ' ' :: timeChars t)
  | 'd' => some (padded d.day pad '0' 2)
  | 'e' => some (padded d.day pad ' ' 2)
  | 'f' => some (padded (t.nanos / 1000 % 1000000 : Nat) pad '0' 6)
  | 'g' => some (padded (d.isoWeek.1.tmod 100) pad '0' 2)
  | 'G' => some (padded d.isoWeek.1 pad '0' 4)
  | 'H' => some (padded t.hour pad '0' 2)
  | 'I' => some (padded (dialHour t) pad '0' 2)
  | 'j' => some (padded (d.dayOfYear + 1) pad '0' 3)
  | 'L' => some (padded (t.nanos / 1000000 % 1000 : Nat) pad '0' 3)
  | 'm' => some (padded d.month pad '0' 2)
  | 'M' => some (padded t.minute pad '0' 2)
  | 'p' => some (halfOfDay t)
  | 'q' => some (natChars ((d.month - 1) / 3 + 1))
  | 'Q' => some (intChars instant.millis)
  | 's' => some (intChars instant.seconds)
  | 'S' => some (padded t.second pad '0' 2)
  | 'u' => some (natChars ((d.weekday + 6) % 7 + 1))
  | 'U' => some (padded ((d.dayOfYear + 7 - d.weekday) / 7 : Nat) pad '0' 2)
  | 'V' => some (padded d.isoWeek.2 pad '0' 2)
  | 'w' => some (natChars d.weekday)
  | 'W' => some (padded ((d.dayOfYear + 7 - (d.weekday + 6) % 7) / 7 : Nat) pad '0' 2)
  | 'x' => some (dateChars d)
  | 'X' => some (timeChars t)
  | 'y' => some (padded (d.year.tmod 100) pad '0' 2)
  | 'Y' => some (padded d.year pad '0' 4)
  | 'Z' => some (offsetChars offset)
  | _ => none

/-- The text of a directive as it stands in a pattern. -/
def directiveSource (code : Char) (pad : Option PadMark) : List Char :=
  '%' :: (pad.map PadMark.char).toList ++ [code]

/-- The text of a piece for what clocks show at an instant. -/
def pieceChars (t : Instant) (offset : Int) : DatePiece → List Char
  | .literal c => [c]
  | .directive code pad => (directiveChars? code pad t offset).getD (directiveSource code pad)

/-- Writes what clocks show at an instant that are ahead of universal time by `offset` seconds. -/
def format (p : DatePattern) (t : Instant) (offset : Int := 0) : String :=
  String.ofList (p.pieces.flatMap (pieceChars t offset))

end DatePattern

end ChartTemplate
