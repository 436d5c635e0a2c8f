/-!
# The civil calendar

Dates of the proleptic Gregorian calendar, with a year zero, and their numbering by days since the
first of January 1970.
-/

namespace ChartTemplate

structure Date where
  /-- The year; the year before year one is year zero. -/
  year : Int
  /-- The month, from 1. -/
  month : Nat
  /-- The day of the month, from 1. -/
  day : Nat
deriving DecidableEq, Repr

/-- Whether a year has a 29th of February. -/
def isLeapYear (y : Int) : Bool :=
  y % 4 == 0 && (y % 100 != 0 || y % 400 == 0)

def daysInMonth (y : Int) (m : Nat) : Nat :=
  if m = 2 then (if isLeapYear y then 29 else 28)
  else if m = 4 ∨ m = 6 ∨ m = 9 ∨ m = 11 then 30
  else 31

/-- The years in which dates may lie. -/
def minYear : Int := -262143

/-- The last year in which dates may lie. -/
def maxYear : Int := 262142

namespace Date

def ofParts? (year : Int) (month day : Nat) : Option Date :=
  if minYear ≤ year ∧ year ≤ maxYear ∧ 1 ≤ month ∧ month ≤ 12 ∧ 1 ≤ day ∧
      day ≤ daysInMonth year month then some ⟨year, month, day⟩
  else none

/-- Days since the first of January 1970. Years are counted from March, so that the leap day is the
last of its year, and 400 years are 146097 days. -/
def toDays (d : Date) : Int :=
  let y := if d.month ≤ 2 then d.year - 1 else d.year
  let m := (d.month + 9) % 12
  365 * y + y / 4 - y / 100 + y / 400 + ((153 * m + 2) / 5 + d.day - 1 : Nat) - 719468

/-- The date that lies `n` days after the first of January 1970. -/
def ofDays (n : Int) : Date :=
  let z := n + 719468
  let era := z / 146097
  let doe := (z % 146097).toNat
  let yoe := (doe - doe / 1460 + doe / 36524 - doe / 146096) / 365
  let doy := doe - (365 * yoe + yoe / 4 - yoe / 100)
  let m := (5 * doy + 2) / 153
  let month := if m < 10 then m + 3 else m - 9
  { year := yoe + era * 400 + if month ≤ 2 then 1 else 0
    month
    day := doy - (153 * m + 2) / 5 + 1 }

/-- The day of the week of the `n`th day since the first of January 1970, Sundays being zero. -/
def weekdayOfDays (n : Int) : Nat :=
  ((n + 4) % 7).toNat

/-- The day of the week, Sundays being zero. -/
def weekday (d : Date) : Nat :=
  weekdayOfDays d.toDays

/-- Days since the first of January of the year. -/
def dayOfYear (d : Date) : Nat :=
  (d.toDays - (Date.mk d.year 1 1).toDays).toNat

/-- The Monday of the week that holds the fourth of January, which is the first week of the year. -/
def firstMonday (year : Int) : Int :=
  let n := (Date.mk year 1 4).toDays
  n - (n + 3) % 7

/-- The year, and the number within it, of the week in which the date lies. Weeks start on Monday
and belong to the year that holds their Thursday. -/
def isoWeek (d : Date) : Int × Nat :=
  let n := d.toDays
  let year :=
    if n < firstMonday d.year then d.year - 1
    else if firstMonday (d.year + 1) ≤ n then d.year + 1
    else d.year
  (year, ((n - firstMonday year) / 7).toNat + 1)

end Date

end ChartTemplate
