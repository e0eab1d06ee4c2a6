/-
# Calendar units

Moving a date by an amount of a unit, setting one unit of it and reading one off.
All of this happens on what the clocks of a zone show: a day later means the same
reading on the next day, even if that day is shorter.  Only units from the hour
down are added to the instant itself.
-/

import RowFormula.Calendar.Zone
import RowFormula.Text.Blank

namespace RowFormula.Calendar

/-- The units of calendar arithmetic. -/
inductive DateUnit where
  | year
  | month
  | week
  | day
  | hour
  | minute
  | second
  | millisecond
  deriving DecidableEq, Repr, Inhabited

namespace DateUnit

def all : List DateUnit :=
  [year, month, week, day, hour, minute, second, millisecond]

def name : DateUnit → String
  | year => "year"
  | month => "month"
  | week => "week"
  | day => "day"
  | hour => "hour"
  | minute => "minute"
  | second => "second"
  | millisecond => "millisecond"

/-- Finds a unit by name.  Case and surrounding blanks do not matter. -/
def ofName? (text : String) : Option DateUnit :=
  let wanted := Text.asciiLower (Text.trim text)
  all.find? fun u => u.name == wanted

end DateUnit

/-- Why calendar arithmetic has no result. -/
inductive UnitFault where
  /-- The clocks of the zone skip the reading that results. -/
  | skipped (reading : ClockReading) (zone : Zone)
  /-- The result lies outside the supported years. -/
  | overflow (amount : Int) (unit : DateUnit)
  /-- The unit does not take the value on that date. -/
  | outOfRange (value : Int) (unit : DateUnit)
  /-- The clocks of the zone have left the supported years at the date itself. -/
  | unshown (zone : Zone)
  deriving Repr

namespace UnitFault

def message : UnitFault → String
  | skipped reading zone =>
    reading.exactText " " ++ " does not exist in time zone " ++ zone.name
  | overflow amount unit =>
    "adding " ++ Text.signedDecimal amount ++ " " ++ unit.name ++
      " leaves the supported date range"
  | outOfRange value unit =>
    Text.signedDecimal value ++ " is out of range for unit " ++ unit.name
  | unshown zone => "local time out of range in time zone " ++ zone.name

end UnitFault

namespace Zone

/-- The first instant that shows a reading, or the fault that none does. -/
def instantOf (z : Zone) (c : ClockReading) : Except UnitFault Instant :=
  match z.earliest? c with
  | some i => pure i
  | none => throw (.skipped c z)

/-- A result, or the fault given. -/
def orFault {α : Type} (fault : UnitFault) : Option α → Except UnitFault α
  | some a => pure a
  | none => throw fault

/-- What the clocks of the zone show at an instant from which calendar arithmetic starts.
Near the ends of the supported years they may show a year beyond. -/
def readingOf (z : Zone) (i : Instant) : Except UnitFault ClockReading :=
  if z.shows i then pure (z.reading i) else throw (.unshown z)

/-- Moves a reading by whole days. -/
def shiftDays? (c : ClockReading) (days : Int) : Option ClockReading :=
  (c.toInstant.addNanos? (days * 86400 * billion)).map Instant.utc

/-- Moves a reading by whole months. -/
def shiftMonths? (c : ClockReading) (months : Int) : Option ClockReading :=
  (c.date.addMonths? months).map fun date => { c with date }

/-- Adds an amount of a unit.  The reading is taken for every unit, also where only the
instant counts. -/
def add (z : Zone) (i : Instant) (amount : Int) (unit : DateUnit) :
    Except UnitFault Instant := do
  let c ← z.readingOf i
  let fault := UnitFault.overflow amount unit
  match unit with
  | .year => do z.instantOf (← orFault fault (shiftMonths? c (12 * amount)))
  | .month => do z.instantOf (← orFault fault (shiftMonths? c amount))
  | .week => do z.instantOf (← orFault fault (shiftDays? c (7 * amount)))
  | .day => do z.instantOf (← orFault fault (shiftDays? c amount))
  | .hour => orFault fault (i.addNanos? (amount * 3600 * billion))
  | .minute => orFault fault (i.addNanos? (amount * 60 * billion))
  | .second => orFault fault (i.addNanos? (amount * billion))
  | .millisecond => orFault fault (i.addNanos? (amount * 1000000))

/-- Replaces one field of a reading, if the result exists. -/
def replaceField? (c : ClockReading) (value : Int) (unit : DateUnit) : Option ClockReading :=
  let d := c.date
  let onDate (found : Option Date) : Option ClockReading :=
    found.map fun date => { c with date }
  match unit with
  | .year => onDate (Date.ofParts? value d.month d.day)
  | _ =>
    if value < 0 then none
    else
      let n := value.toNat
      match unit with
      | .year => none
      | .month => onDate (Date.ofParts? d.year n d.day)
      | .week => onDate (Date.ofIsoWeek? d.isoYear n d.weekday)
      | .day => onDate (Date.ofParts? d.year d.month n)
      | .hour => if n < 24 then some (c.withTime n c.minute c.secondOfMinute) else none
      | .minute => if n < 60 then some (c.withTime c.hour n c.secondOfMinute) else none
      | .second => if n < 60 then some (c.withTime c.hour c.minute n) else none
      | .millisecond => if n < 1000 then some { c with nanos := n * 1000000 } else none

/-- Sets one unit. -/
def set (z : Zone) (i : Instant) (value : Int) (unit : DateUnit) : Except UnitFault Instant := do
  let c ← z.readingOf i
  z.instantOf (← orFault (.outOfRange value unit) (replaceField? c value unit))

/-- Reads one unit off.  Weeks are those of the ISO calendar, and within a leap
second the milliseconds go on beyond 999. -/
def get (z : Zone) (i : Instant) (unit : DateUnit) : Int :=
  let c := z.reading i
  match unit with
  | .year => c.date.year
  | .month => c.date.month
  | .week => c.date.isoWeek
  | .day => c.date.day
  | .hour => c.hour
  | .minute => c.minute
  | .second => c.secondOfMinute
  | .millisecond => c.nanos / 1000000

end Zone

end RowFormula.Calendar
