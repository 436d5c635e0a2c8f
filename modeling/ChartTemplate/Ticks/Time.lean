import ChartTemplate.Ticks.Linear
import ChartTemplate.Time.Pattern

/-!
# Ticks in time

A `TimeInterval` is every `step`th boundary of a calendar unit in universal time. Instants are given
in milliseconds. Boundaries are found by moving from one unit to the next until the unit's number is
a multiple of the step.
-/

namespace ChartTemplate

inductive TimeUnit where
  | millisecond
  | second
  | minute
  | hour
  | day
  /-- A week from Sunday on. -/
  | week
  | month
  | year
deriving DecidableEq, Repr

/-- Every `step`th boundary of a unit. -/
structure TimeInterval where
  unit : TimeUnit
  /-- How many units lie between boundaries. -/
  step : Int
deriving DecidableEq, Repr

def dayMillis : Float := 86400000

/-- The length of a common year in milliseconds. -/
def yearMillis : Float := 31536000000

/-- The intervals between milliseconds and years, with their lengths in milliseconds. -/
def tickIntervals : List (TimeInterval × Float) :=
  [(⟨.second, 1⟩, 1000), (⟨.second, 5⟩, 5000), (⟨.second, 15⟩, 15000), (⟨.second, 30⟩, 30000),
    (⟨.minute, 1⟩, 60000), (⟨.minute, 5⟩, 300000), (⟨.minute, 15⟩, 900000),
    (⟨.minute, 30⟩, 1800000), (⟨.hour, 1⟩, 3600000), (⟨.hour, 3⟩, 10800000),
    (⟨.hour, 6⟩, 21600000), (⟨.hour, 12⟩, 43200000), (⟨.day, 1⟩, dayMillis),
    (⟨.day, 2⟩, 2 * dayMillis), (⟨.week, 1⟩, 7 * dayMillis), (⟨.month, 1⟩, 30 * dayMillis),
    (⟨.month, 3⟩, 90 * dayMillis)]

/-- The instant of a number of milliseconds; NaN counts as zero. -/
def instantOf? (ms : Float) : Option Instant :=
  Instant.ofMillis? (toInt64Clamped ms)

def Instant.toFloat (t : Instant) : Float :=
  Float.ofInt t.millis

/-- Midnight of a date, if there is such a date. -/
def midnight? (year : Int) (month day : Nat) : Option Instant :=
  (Date.ofParts? year month day).map Instant.midnight

namespace TimeInterval

/-- The interval next to a length of time among those around it, by ratio. -/
def nearest (target : Float) : List (TimeInterval × Float) → Option TimeInterval
  | (i, a) :: (j, b) :: rest =>
    if b ≤ target then nearest target ((j, b) :: rest)
    else some (if target / a < b / target then i else j)
  | _ => none

/-- The interval that gives about `count` boundaries between two instants. -/
def forSpan (start stop count : Float) : TimeInterval :=
  let target := (stop - start).abs / count
  let steps (x : Float) : Int := toInt64Clamped (maxNumber x.abs 1)
  if !(1000 ≤ target) then ⟨.millisecond, steps (tickStep start stop count)⟩
  else
    match nearest target tickIntervals with
    | some i => i
    | none => ⟨.year, steps (tickStep (start / yearMillis) (stop / yearMillis) count)⟩

/-- The instant moved by a number of seconds, if it stays in the range of dates. -/
def shift? (t : Instant) (seconds : Int) : Option Instant :=
  Instant.ofSeconds? (t.seconds + seconds) t.nanos

/-- The last multiple of a length of time, in milliseconds, at or before an instant. -/
def truncate? (t : Instant) (size : Int) : Option Instant :=
  Instant.ofMillis? (t.millis / size * size)

/-- The start of the unit that holds the instant. -/
def floorUnit (u : TimeUnit) (t : Instant) : Except Fault (Option Instant) :=
  let d := t.date
  match u with
  | .millisecond => pure (some t)
  | .second => pure (truncate? t 1000)
  | .minute => pure (truncate? t 60000)
  | .hour => pure (truncate? t 3600000)
  | .day => pure (midnight? d.year d.month d.day)
  | .week =>
    match midnight? d.year d.month d.day with
    | none => pure none
    | some t =>
      match shift? t (-86400 * d.weekday) with
      | some t => pure (some t)
      | none => throw .dateRange
  | .month => pure (midnight? d.year d.month 1)
  | .year => pure (midnight? d.year 1 1)

/-- The instant `n` units later; whole months and years are counted from the start of one. -/
def offsetUnit? (u : TimeUnit) (t : Instant) (n : Int) : Option Instant :=
  let d := t.date
  match u with
  | .millisecond => Instant.ofMillis? (t.millis + n)
  | .second => shift? t n
  | .minute => shift? t (60 * n)
  | .hour => shift? t (3600 * n)
  | .day => shift? t (86400 * n)
  | .week => shift? t (604800 * n)
  | .month =>
    let months := d.year * 12 + (d.month - 1 : Nat) + n
    midnight? (months / 12) ((months % 12).toNat + 1) 1
  | .year => midnight? (d.year + n) 1 1

def unitNumber (u : TimeUnit) (t : Instant) : Int :=
  match u with
  | .millisecond => t.millis
  | .second => t.second
  | .minute => t.minute
  | .hour => t.hour
  | .day => (t.date.day - 1 : Nat)
  | .week => t.millis / 604800000
  | .month => (t.date.month - 1 : Nat)
  | .year => t.date.year

/-- Whether the unit that starts at an instant is one of those that the step keeps. -/
def keeps (i : TimeInterval) (t : Instant) : Bool :=
  (unitNumber i.unit t).tmod i.step == 0

/-- Moves unit by unit to one that the step keeps, or to the end of the range of dates. -/
def search (i : TimeInterval) (direction : Int) : Nat → Instant → Instant
  | 0, t => t
  | fuel + 1, t =>
    if i.keeps t then t
    else match offsetUnit? i.unit t direction with
      | some t => search i direction fuel t
      | none => t

/-- A bound on the length of a search: numbers of small units come back to zero within 60 steps, and
of any others one in `step` is kept. -/
def searchBound (i : TimeInterval) : Nat :=
  i.step.natAbs + 60

/-- The last boundary at or before an instant. -/
def floor (i : TimeInterval) (ms : Float) : Except Fault Float := do
  match instantOf? ms with
  | none => pure ms
  | some t =>
    match ← floorUnit i.unit t with
    | none => pure ms
    | some t =>
      if i.step = 0 then throw .zeroStep
      pure (i.search (-1) i.searchBound t).toFloat

/-- The first boundary at or after an instant. -/
def ceil (i : TimeInterval) (ms : Float) : Except Fault Float := do
  match instantOf? ms with
  | none => pure ms
  | some t =>
    match ← floorUnit i.unit t with
    | none => pure ms
    | some t =>
      if i.step = 0 then throw .zeroStep
      let t := if t.toFloat < ms then (offsetUnit? i.unit t 1).getD t else t
      pure (i.search 1 i.searchBound t).toFloat

/-- The unit by which boundaries are enumerated: where every unit counts, the step itself. -/
def stride (i : TimeInterval) : Int :=
  match i.unit with
  | .millisecond | .year => i.step
  | _ => 1

def maxBoundaries : Nat := 10001

/-- The boundaries from an instant on, up to `stop` and at most `room` of them. The first argument
bounds the number of units that are looked at. -/
def rangeFrom (i : TimeInterval) (stop : Float) : Nat → Nat → Instant → List Float
  | 0, _, _ => []
  | fuel + 1, room, t =>
    let ms := t.toFloat
    if ms > stop || room = 0 then []
    else
      let next (room : Nat) : List Float :=
        match offsetUnit? i.unit t i.stride with
        | some t => rangeFrom i stop fuel room t
        | none => []
      if i.keeps t then ms :: next (room - 1) else next room

/-- The boundaries from `start` to `stop`. At least one unit in 60, or in `step`, is one. -/
def range (i : TimeInterval) (start stop : Float) : Except Fault (List Float) := do
  let first ← i.ceil start
  match instantOf? first with
  | none => pure []
  | some t =>
    if i.step = 0 then throw .zeroStep
    pure (i.rangeFrom stop ((maxBoundaries + 1) * (i.searchBound + 1)) maxBoundaries t)

end TimeInterval

/-- About `count` boundaries of calendar units from `start` to `stop`. -/
def timeTicks (start stop count : Float) : Except Fault (List Float) :=
  if stop < start then
    ((TimeInterval.forSpan stop start count).range stop start).map List.reverse
  else (TimeInterval.forSpan start stop count).range start stop

/-- The label of an instant: the coarsest unit of which it is not a boundary. -/
def timeLabel (t : Instant) : String :=
  let d := t.date
  let pattern :=
    if t.nanos / 1000000 ≠ 0 then ".%L"
    else if t.second ≠ 0 then ":%S"
    else if t.minute ≠ 0 then "%I:%M"
    else if t.hour ≠ 0 then "%I %p"
    else if d.day ≠ 1 then (if d.weekday ≠ 0 then "%a %d" else "%b %d")
    else if d.month ≠ 1 then "%B"
    else "%Y"
  (DatePattern.ofText pattern).format t

end ChartTemplate
