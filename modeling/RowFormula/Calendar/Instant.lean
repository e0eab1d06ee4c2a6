/-
# Instants and clock readings

An `Instant` is a point of universal time: whole seconds since the start of 1970
and nanoseconds since then.  A leap second is written as its preceding second
with a billion nanoseconds or more.  A `ClockReading` is what clocks and calendars
of some place show at an instant; it has the same shape and a different meaning.
-/

import RowFormula.Calendar.Date
import RowFormula.Text.Phrase

namespace RowFormula.Calendar

/-- Nanoseconds of a second. -/
def billion : Nat := 1000000000

/-- A point in universal time. -/
structure Instant where
  /-- Whole seconds since 1970-01-01 00:00:00, rounded down. -/
  seconds : Int
  /-- Nanoseconds since then, a billion or more within a leap second. -/
  nanos : Nat
  deriving DecidableEq, Repr, Inhabited

/-- Calendar and clock fields in force at some place. -/
structure ClockReading where
  date : Date
  /-- Seconds since midnight. -/
  second : Nat
  nanos : Nat
  deriving DecidableEq, Repr, Inhabited

namespace ClockReading

/-- Reads second counts as the fields that a clock without any shift shows. -/
def ofSeconds (seconds : Int) (nanos : Nat) : ClockReading :=
  ⟨Date.ofDayNumber (seconds / 86400), (seconds % 86400).toNat, nanos⟩

/-- Seconds since the reading 1970-01-01 00:00:00 of the same clock. -/
def seconds (c : ClockReading) : Int :=
  c.date.dayNumber * 86400 + c.second

def hour (c : ClockReading) : Nat := c.second / 3600

def minute (c : ClockReading) : Nat := c.second / 60 % 60

def secondOfMinute (c : ClockReading) : Nat := c.second % 60

/-- The hour on a dial of twelve, where noon and midnight are twelve. -/
def hour12 (c : ClockReading) : Nat :=
  if c.hour % 12 = 0 then 12 else c.hour % 12

/-- Whether the hour is in the afternoon. -/
def isAfternoon (c : ClockReading) : Bool := 12 ≤ c.hour

/-- Replaces the hours, minutes and seconds. -/
def withTime (c : ClockReading) (hour minute second : Nat) : ClockReading :=
  { c with second := 3600 * hour + 60 * minute + second }

/-- Midnight at the start of a day. -/
def midnight (d : Date) : ClockReading := ⟨d, 0, 0⟩

/-- The reading as an instant of a clock without any shift. -/
def toInstant (c : ClockReading) : Instant := ⟨c.seconds, c.nanos⟩

/-- A year with at least four digits, and with a sign outside 0 to 9999. -/
def yearText (year : Int) : String :=
  if 0 ≤ year ∧ year ≤ 9999 then Text.padLeft 4 '0' (Text.decimal year.toNat)
  else (if year < 0 then "-" else "+") ++ Text.padLeft 4 '0' (Text.decimal year.natAbs)

/-- Two digits. -/
def twoDigits (n : Nat) : String := Text.padLeft 2 '0' (Text.decimal n)

/-- The fraction of a second in three, six or nine places, or nothing if there is
none. -/
def fractionText (point : String) (nanos : Nat) : String :=
  let n := nanos % billion
  if n = 0 then ""
  else if n % 1000000 = 0 then point ++ Text.padLeft 3 '0' (Text.decimal (n / 1000000))
  else if n % 1000 = 0 then point ++ Text.padLeft 6 '0' (Text.decimal (n / 1000))
  else point ++ Text.padLeft 9 '0' (Text.decimal n)

/-- The number of the second, sixty within a leap second. -/
def shownSecond (c : ClockReading) : Nat :=
  c.secondOfMinute + c.nanos / billion

def dateText (c : ClockReading) : String :=
  yearText c.date.year ++ "-" ++ twoDigits c.date.month ++ "-" ++ twoDigits c.date.day

/-- Hours, minutes and seconds. -/
def timeText (c : ClockReading) : String :=
  twoDigits c.hour ++ ":" ++ twoDigits c.minute ++ ":" ++ twoDigits c.shownSecond

/-- Date and time to the nanosecond, with `separator` between them. -/
def exactText (separator : String) (c : ClockReading) : String :=
  c.dateText ++ separator ++ c.timeText ++ fractionText "." c.nanos

end ClockReading

namespace Instant

/-- Whether the instant lies in a supported year. -/
def isSupported (i : Instant) : Bool :=
  Date.supports (i.seconds / 86400)

/-- The fields that universal time shows. -/
def utc (i : Instant) : ClockReading :=
  ClockReading.ofSeconds i.seconds i.nanos

/-- Order in time. -/
def before (a b : Instant) : Bool :=
  a.seconds < b.seconds || (a.seconds == b.seconds && a.nanos < b.nanos)

/-- The text of a date wherever it is turned into text implicitly. -/
def text (i : Instant) : String :=
  let c := i.utc
  c.dateText ++ " " ++ c.timeText

/-- Milliseconds since 1970, rounded down. -/
def millis (i : Instant) : Int :=
  i.seconds * 1000 + i.nanos / 1000000

/-- The instant so many milliseconds after the start of 1970. -/
def ofMillis? (millis : Int) : Option Instant :=
  let i : Instant := ⟨millis / 1000, (millis % 1000).toNat * 1000000⟩
  if i.isSupported then some i else none

/-- Nanoseconds from `a` to `b`.  A leap second counts when it lies between the
two and not within the same second of the day. -/
def elapsedNanos (a b : Instant) : Int :=
  let dayA := a.seconds / 86400
  let dayB := b.seconds / 86400
  let secondA := a.seconds % 86400
  let secondB := b.seconds % 86400
  let leap : Int :=
    if secondB > secondA ∧ billion ≤ a.nanos then 1
    else if secondB < secondA ∧ billion ≤ b.nanos then -1
    else 0
  ((dayB - dayA) * 86400 + (secondB - secondA) + leap) * billion + ((b.nanos : Int) - a.nanos)

/-- Milliseconds from `a` to `b`, a fraction being cut off. -/
def elapsedMillis (a b : Instant) : Int :=
  (elapsedNanos a b).tdiv 1000000

/-- The instant so many nanoseconds later.  Leaving a leap second forward counts
from the second before it, and leaving it backward from the second after it. -/
def addNanos? (i : Instant) (amount : Int) : Option Instant :=
  let wholeSeconds := amount.tdiv billion
  let fraction := amount.tmod billion
  let moved : Instant :=
    if i.nanos < billion then normalize i.seconds (i.nanos + fraction) wholeSeconds
    else if wholeSeconds > 0 ∨ (fraction > 0 ∧ 2 * billion ≤ i.nanos + fraction) then
      normalize i.seconds (i.nanos - billion + fraction) wholeSeconds
    else if wholeSeconds < 0 then
      normalize (i.seconds + 1) (i.nanos - billion + fraction) wholeSeconds
    else ⟨i.seconds, (i.nanos + fraction).toNat⟩
  if moved.isSupported then some moved else none
where
  /-- Carries nanoseconds that overflow or underflow into the seconds. -/
  normalize (seconds nanos wholeSeconds : Int) : Instant :=
    ⟨seconds + wholeSeconds + nanos / billion, (nanos % billion).toNat⟩

/-- The shape in which other programs exchange instants. -/
def exchangeText (i : Instant) : String :=
  i.utc.exactText "T" ++ "+00:00"

end Instant

end RowFormula.Calendar
