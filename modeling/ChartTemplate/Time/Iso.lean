import ChartTemplate.Text.Blank
import ChartTemplate.Time.Instant
import ChartTemplate.Numeric.Text
import ChartTemplate.Numeric.Read

/-!
# ISO timestamps

`Instant.isoChars` writes an instant with milliseconds and the letter `Z`. `Instant.ofIso?` reads
three forms, in this order:

* a full timestamp of fixed width with an offset from universal time (`2024-01-31T00:00:00+05:30`);
* a date and time without an offset, with numbers of free width (`2024-1-31T0:00:00.5`);
* a date alone (`2024-1-31`).
-/

namespace ChartTemplate

/-- The digits of `n` with zeros in front up to `width` digits. -/
def paddedNat (width n : Nat) : List Char :=
  zeros (width - (natChars n).length) ++ natChars n

namespace Instant

/-- A year: four digits, with a sign when it is not between 0 and 9999. -/
def yearChars (y : Int) : List Char :=
  if 0 ≤ y ∧ y ≤ 9999 then paddedNat 4 y.toNat
  else (if y < 0 then '-' else '+') :: paddedNat 4 y.natAbs

/-- The characters of the ISO text of an instant, with milliseconds. -/
def isoChars (t : Instant) : List Char :=
  let d := t.date
  let leap := 1000000000 ≤ t.nanos
  let second := if leap then t.second + 1 else t.second
  let nanos := if leap then t.nanos - 1000000000 else t.nanos
  yearChars d.year ++ '-' :: paddedNat 2 d.month ++ '-' :: paddedNat 2 d.day ++
    'T' :: paddedNat 2 t.hour ++ ':' :: paddedNat 2 t.minute ++ ':' :: paddedNat 2 second ++
    '.' :: paddedNat 3 (nanos / 1000000) ++ ['Z']

def isoText (t : Instant) : String :=
  String.ofList t.isoChars

end Instant

namespace Iso

/-- Reads between `least` and `most` digits. -/
def digits? (least most : Nat) (cs : List Char) : Option (Nat × List Char) :=
  let ds := (cs.take most).takeWhile Char.isDigit
  if ds.length < least then none else some (natOfChars ds, cs.drop ds.length)

def char? (c : Char) : List Char → Option (List Char)
  | d :: r => if c == d then some r else none
  | [] => none

/-- Reads the digits of a fraction of a second as nanoseconds; digits after the ninth are skipped. -/
def nanos? (cs : List Char) : Option (Nat × List Char) := do
  let (n, r) ← digits? 1 9 cs
  pure (n * powTen (9 - (cs.length - r.length)), r.dropWhile Char.isDigit)

/-- Reads a point and a fraction of a second, if there is a point. -/
def fraction? : List Char → Option (Nat × List Char)
  | '.' :: r => nanos? r
  | r => some (0, r)

/-- Reads an offset from universal time, in seconds. -/
def offset? : List Char → Option (Int × List Char)
  | [] => none
  | c :: r =>
    if c == 'Z' || c == 'z' then some (0, r)
    else do
      let sign : Int ← if c == '+' then some 1 else if c == '-' || c == '−' then some (-1) else none
      let (h, r) ← digits? 2 2 r
      let r ← char? ':' r
      let (m, r) ← digits? 2 2 r
      if h ≤ 23 ∧ m ≤ 59 then pure (sign * (h * 3600 + m * 60), r) else none

/-- The instant of a date and a time of day. The sixtieth second is the leap second. -/
def instant? (d : Date) (hour minute second nanos : Nat) (offset : Int) : Option Instant :=
  if hour ≤ 23 ∧ minute ≤ 59 ∧ second ≤ 60 then
    let (second, nanos) := if second = 60 then (59, nanos + 1000000000) else (second, nanos)
    Instant.ofSeconds? (d.toDays * 86400 + (hour * 3600 + minute * 60 + second : Nat) - offset) nanos
  else none

/-- Reads a full timestamp of fixed width. -/
def fixed? (cs : List Char) : Option Instant := do
  let (year, r) ← digits? 4 4 cs
  let r ← char? '-' r
  let (month, r) ← digits? 2 2 r
  let r ← char? '-' r
  let (day, r) ← digits? 2 2 r
  let r ← match r with
    | c :: r => if c == 't' || c == 'T' || c == ' ' then some r else none
    | [] => none
  let (hour, r) ← digits? 2 2 r
  let r ← char? ':' r
  let (minute, r) ← digits? 2 2 r
  let r ← char? ':' r
  let (second, r) ← digits? 2 2 r
  let (nanos, r) ← fraction? r
  let (offset, r) ← offset? r
  if r.isEmpty then
    let d ← Date.ofParts? year month day
    instant? d hour minute second nanos offset
  else none

/-- Reads a year: up to four digits, or a sign and any number of them. Blanks may stand first. -/
def year? (cs : List Char) : Option (Int × List Char) :=
  match trimLeft cs with
  | '-' :: r => (digits? 1 r.length r).map fun (n, r) => (-(n : Int), r)
  | '+' :: r => (digits? 1 r.length r).map fun (n, r) => ((n : Int), r)
  | r => (digits? 1 4 r).map fun (n, r) => ((n : Int), r)

/-- Reads one or two digits. Blanks may stand first. -/
def field? (cs : List Char) : Option (Nat × List Char) :=
  digits? 1 2 (trimLeft cs)

/-- Reads a date with numbers of free width. -/
def date? (cs : List Char) : Option (Date × List Char) := do
  let (year, r) ← year? cs
  let r ← char? '-' r
  let (month, r) ← field? r
  let r ← char? '-' r
  let (day, r) ← field? r
  let d ← Date.ofParts? year month day
  pure (d, r)

/-- Reads a date and time without offset, with numbers of free width. -/
def dateTime? (cs : List Char) : Option Instant := do
  let (d, r) ← date? cs
  let r ← char? 'T' r
  let (hour, r) ← field? r
  let r ← char? ':' r
  let (minute, r) ← field? r
  let r ← char? ':' r
  let (second, r) ← field? r
  let (nanos, r) ← fraction? r
  if r.isEmpty then instant? d hour minute second nanos 0 else none

/-- Reads a date alone, as its midnight. -/
def dateOnly? (cs : List Char) : Option Instant := do
  let (d, r) ← date? cs
  if r.isEmpty then pure (Instant.midnight d) else none

end Iso

/-- Reads an ISO timestamp, a date and time, or a date. -/
def Instant.ofIso? (text : String) : Option Instant :=
  let cs := text.toList
  ((Iso.fixed? cs).or (Iso.dateTime? cs)).or (Iso.dateOnly? cs)

end ChartTemplate
