import ChartTemplate.Fault
import ChartTemplate.Time.Calendar

/-!
# Instants and time zones

An `Instant` is a second of universal time and nanoseconds within it. A leap second is written as
nanoseconds beyond one thousand million in the second before it. A `TimeZone` says how far local clocks
are ahead of universal time; near the ends of the range of dates local clocks have nothing to show.
-/

namespace ChartTemplate

structure Instant where
  /-- Seconds since the start of 1970. -/
  seconds : Int
  /-- Nanoseconds within the second; a thousand million and more within a leap second. -/
  nanos : Nat
deriving DecidableEq, Repr

namespace Instant

def dayNumber (t : Instant) : Int :=
  t.seconds / 86400

def date (t : Instant) : Date :=
  Date.ofDays t.dayNumber

def secondOfDay (t : Instant) : Nat :=
  (t.seconds % 86400).toNat

def hour (t : Instant) : Nat :=
  t.secondOfDay / 3600

def minute (t : Instant) : Nat :=
  t.secondOfDay / 60 % 60

/-- The second of the minute, a leap second being part of the one before. -/
def second (t : Instant) : Nat :=
  t.secondOfDay % 60

/-- Milliseconds since the start of 1970, rounded down. -/
def millis (t : Instant) : Int :=
  t.seconds * 1000 + (t.nanos / 1000000 : Nat)

/-- Microseconds since the start of 1970, rounded down. -/
def micros (t : Instant) : Int :=
  t.seconds * 1000000 + (t.nanos / 1000 : Nat)

/-- The instant with the given seconds and nanoseconds, if its year is one that dates may have. -/
def ofSeconds? (seconds : Int) (nanos : Nat) : Option Instant :=
  let day := seconds / 86400
  if (Date.mk minYear 1 1).toDays ≤ day ∧ day ≤ (Date.mk maxYear 12 31).toDays then
    some ⟨seconds, nanos⟩
  else none

/-- The instant `ms` milliseconds after the start of 1970. -/
def ofMillis? (ms : Int) : Option Instant :=
  ofSeconds? (ms / 1000) ((ms % 1000).toNat * 1000000)

/-- The instant `us` microseconds after the start of 1970. -/
def ofMicros? (us : Int) : Option Instant :=
  ofSeconds? (us / 1000000) ((us % 1000000).toNat * 1000)

def midnight (d : Date) : Instant :=
  ⟨d.toDays * 86400, 0⟩

/-- What clocks show that are ahead by a number of seconds, as an instant of universal time. -/
def shift (t : Instant) (offset : Int) : Instant :=
  { t with seconds := t.seconds + offset }

@[simp] theorem shift_zero (t : Instant) : t.shift 0 = t := by
  rw [shift, Int.add_zero]

end Instant

/-- How many seconds local clocks are ahead of universal time at an instant: less than a day. -/
structure TimeZone where
  offset : Instant → Int
  lt_day : ∀ t, (offset t).natAbs < 86400

namespace TimeZone

def utc : TimeZone := ⟨fun _ => 0, fun _ => by decide⟩

/-- How far local clocks are ahead, or those of universal time. Cut off where local clocks would show a date
out of range. -/
def clockOffset (z : TimeZone) (universal : Bool) (t : Instant) : Except Fault Int :=
  if universal then .ok 0
  else
    match Instant.ofSeconds? (t.seconds + z.offset t) t.nanos with
    | some _ => .ok (z.offset t)
    | none => .error .dateRange

end TimeZone

end ChartTemplate
