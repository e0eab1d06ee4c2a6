/-
# Dates from fields

Reading a date by a pattern first collects fields, then looks for the one date,
time or instant that agrees with all of them.  A field that occurs twice must
have the same value both times, and a field outside its range is refused at once.
-/

import RowFormula.Calendar.DatePattern
import RowFormula.Calendar.Instant
import RowFormula.Number.Dyadic

namespace RowFormula.Calendar

/-- The fields read so far. -/
structure DateFields where
  year : Option Int := none
  century : Option Int := none
  yearOfCentury : Option Int := none
  isoYear : Option Int := none
  isoCentury : Option Int := none
  isoYearOfCentury : Option Int := none
  quarter : Option Int := none
  month : Option Int := none
  day : Option Int := none
  weekFromSunday : Option Int := none
  weekFromMonday : Option Int := none
  isoWeek : Option Int := none
  weekday : Option Int := none
  ordinal : Option Int := none
  /-- Zero before noon and one after it. -/
  halfDay : Option Int := none
  /-- The hour on a dial that starts with zero. -/
  dialHour : Option Int := none
  minute : Option Int := none
  second : Option Int := none
  nanosecond : Option Int := none
  timestamp : Option Int := none
  offset : Option Int := none
  deriving DecidableEq, Repr, Inhabited

/-- Why fields do not determine a result.  Only the first two matter when a count
of seconds is there to fall back on. -/
inductive FieldFault where
  | outOfRange
  | contradiction
  | insufficient
  deriving DecidableEq, Repr

namespace DateFields

open FieldFault

/-- Enters a value within its range where there is none yet, or the same one. -/
def enter (low high value : Int) (old : Option Int) : Except FieldFault (Option Int) :=
  if value < low ∨ high < value then throw outOfRange
  else
    match old with
    | none => pure (some value)
    | some v => if v = value then pure (some v) else throw contradiction

def minInt32 : Int := -2147483648

def maxInt32 : Int := 2147483647

/-- Enters an hour of the day as its half and its place on the dial. -/
def enterHour (v : Int) (f : DateFields) : Except FieldFault DateFields := do
  let _ ← enter 0 23 v none
  let halfDay ← enter 0 1 (v / 12) f.halfDay
  let dialHour ← enter 0 11 (v % 12) f.dialHour
  pure { f with halfDay, dialHour }

/-- Enters a day of the week, counted from Monday. -/
def enterWeekday (v : Int) (f : DateFields) : Except FieldFault DateFields := do
  pure { f with weekday := ← enter 0 6 v f.weekday }

/-- Enters the number read for a field. -/
def enterNumber (field : NumericField) (v : Int) (f : DateFields) :
    Except FieldFault DateFields :=
  match field with
  | .year => do pure { f with year := ← enter minInt32 maxInt32 v f.year }
  | .century => do pure { f with century := ← enter 0 maxInt32 v f.century }
  | .yearOfCentury => do pure { f with yearOfCentury := ← enter 0 99 v f.yearOfCentury }
  | .isoYear => do pure { f with isoYear := ← enter minInt32 maxInt32 v f.isoYear }
  | .isoYearOfCentury => do
    pure { f with isoYearOfCentury := ← enter 0 99 v f.isoYearOfCentury }
  | .quarter => do pure { f with quarter := ← enter 1 4 v f.quarter }
  | .month => do pure { f with month := ← enter 1 12 v f.month }
  | .day => do pure { f with day := ← enter 1 31 v f.day }
  | .weekFromSunday => do pure { f with weekFromSunday := ← enter 0 53 v f.weekFromSunday }
  | .weekFromMonday => do pure { f with weekFromMonday := ← enter 0 53 v f.weekFromMonday }
  | .isoWeek => do pure { f with isoWeek := ← enter 1 53 v f.isoWeek }
  | .daysFromSunday => do
    let v ← (if 0 ≤ v ∧ v ≤ 6 then pure v else throw outOfRange)
    f.enterWeekday ((v + 6) % 7)
  | .weekdayFromMonday => do
    let v ← (if 1 ≤ v ∧ v ≤ 7 then pure v else throw outOfRange)
    f.enterWeekday (v - 1)
  | .ordinal => do pure { f with ordinal := ← enter 1 366 v f.ordinal }
  | .hour => f.enterHour v
  | .hour12 => do
    let _ ← enter 1 12 v none
    pure { f with dialHour := ← enter 0 11 (v % 12) f.dialHour }
  | .minute => do pure { f with minute := ← enter 0 59 v f.minute }
  | .second => do pure { f with second := ← enter 0 60 v f.second }
  | .nanosecond => do pure { f with nanosecond := ← enter 0 999999999 v f.nanosecond }
  | .timestamp => do
    pure { f with timestamp := ← enter Number.minInt64 Number.maxInt64 v f.timestamp }

/-- The year that a full year, a century and a year of the century agree on.  A
year of the century alone means 1970 to 2069. -/
def resolveYear (full century ofCentury : Option Int) : Except FieldFault (Option Int) :=
  match full, century, ofCentury with
  | y, none, none => pure y
  | some y, q, r =>
    if y < 0 then throw contradiction
    else if q.getD (y / 100) = y / 100 ∧ r.getD (y % 100) = y % 100 then pure (some y)
    else throw contradiction
  | none, some q, some r => pure (some (100 * q + r))
  | none, none, some r => pure (some (r + if r < 70 then 2000 else 1900))
  | none, some _, none => throw insufficient

/-- Whether a field, if it was read, has the value `v`. -/
def agrees (field : Option Int) (v : Int) : Bool :=
  field.all (· == v)

/-- Whether the parts of the calendar year that were read are those of a date. -/
def agreesOnYearMonthDay (f : DateFields) (d : Date) : Bool :=
  let split (part : Int) (field : Option Int) :=
    if 0 ≤ d.year then agrees field part else field.isNone
  agrees f.year d.year && split (d.year / 100) f.century &&
    split (d.year % 100) f.yearOfCentury && agrees f.month d.month && agrees f.day d.day

/-- Whether the parts of the ISO week date that were read are those of a date. -/
def agreesOnIsoWeek (f : DateFields) (d : Date) : Bool :=
  let y := d.isoYear
  let split (part : Int) (field : Option Int) :=
    if 0 ≤ y then agrees field part else field.isNone
  agrees f.isoYear y && split (y / 100) f.isoCentury &&
    split (y % 100) f.isoYearOfCentury && agrees f.isoWeek d.isoWeek &&
    agrees f.weekday d.weekday.index

/-- Whether the number of the day in the year and the week numbers that were read
are those of a date. -/
def agreesOnOrdinal (f : DateFields) (d : Date) : Bool :=
  agrees f.ordinal d.ordinal && agrees f.weekFromSunday (d.weekFrom .sunday) &&
    agrees f.weekFromMonday (d.weekFrom .monday)

/-- The date of a weekday in a week of a year, when weeks start on `first`. -/
def weekDate (year week : Int) (day : Int) (first : Weekday) : Except FieldFault Date :=
  if week > 53 then throw outOfRange
  else
    match Date.ofParts? year 1 1 with
    | none => throw outOfRange
    | some newYear =>
      let start : Int := 1 + first.daysSince newYear.weekday
      let inWeek : Int := (Weekday.ofIndex day.toNat).daysSince first
      let ordinal := start + (week - 1) * 7 + inWeek
      if ordinal ≤ 0 then throw contradiction
      else
        match Date.ofOrdinal? year ordinal.toNat with
        | some d => pure d
        | none => throw contradiction

/-- An existing date, or the fault of a field out of range. -/
def existing (d : Option Date) : Except FieldFault Date :=
  match d with
  | some d => pure d
  | none => throw outOfRange

/-- The date the fields determine, found through the first complete group of
fields and checked against all others. -/
def toDate (f : DateFields) : Except FieldFault Date := do
  let year ← resolveYear f.year f.century f.yearOfCentury
  let isoYear ← resolveYear f.isoYear f.isoCentury f.isoYearOfCentury
  let found : Date × Bool ←
    match year, isoYear with
    | some y, iso =>
      match f.month, f.day, f.ordinal, f.weekFromSunday, f.weekFromMonday, f.weekday with
      | some m, some d, _, _, _, _ => do
        let date ← existing (Date.ofParts? y m.toNat d.toNat)
        pure (date, f.agreesOnIsoWeek date && f.agreesOnOrdinal date)
      | _, _, some o, _, _, _ => do
        let date ← existing (Date.ofOrdinal? y o.toNat)
        pure (date, f.agreesOnYearMonthDay date && f.agreesOnIsoWeek date &&
          f.agreesOnOrdinal date)
      | _, _, _, some w, _, some day => do
        let date ← weekDate y w day .sunday
        pure (date, f.agreesOnYearMonthDay date && f.agreesOnIsoWeek date &&
          f.agreesOnOrdinal date)
      | _, _, _, _, some w, some day => do
        let date ← weekDate y w day .monday
        pure (date, f.agreesOnYearMonthDay date && f.agreesOnIsoWeek date &&
          f.agreesOnOrdinal date)
      | _, _, _, _, _, _ => isoDate iso
    | none, iso => isoDate iso
  if !found.2 then throw contradiction
  else if !agrees f.quarter ((found.1.month + 2) / 3 : Nat) then throw contradiction
  else pure found.1
where
  /-- The date of a day of an ISO week. -/
  isoDate (iso : Option Int) : Except FieldFault (Date × Bool) :=
    match iso, f.isoWeek, f.weekday with
    | some y, some w, some day => do
      let date ← existing (Date.ofIsoWeek? y w.toNat (Weekday.ofIndex day.toNat))
      pure (date, f.agreesOnYearMonthDay date && f.agreesOnOrdinal date)
    | _, _, _ => throw insufficient

/-- The time of day the fields determine, as seconds since midnight and
nanoseconds.  Seconds may be left out; a fraction of a second may not stand
without them. -/
def toTime (f : DateFields) : Except FieldFault (Nat × Nat) :=
  match f.halfDay, f.dialHour, f.minute with
  | some half, some dial, some minute =>
    match f.second, f.nanosecond with
    | none, some _ => throw insufficient
    | second, nanos =>
      let s := second.getD 0
      let leap := s = 60
      let s := if leap then 59 else s
      let total := (12 * half + dial) * 3600 + minute * 60 + s
      pure (total.toNat, (nanos.getD 0).toNat + if leap then billion else 0)
  | _, _, _ => throw insufficient

/-- Date and time as one clock reading. -/
def joined (f : DateFields) : Except FieldFault ClockReading := do
  let d ← f.toDate
  let t ← f.toTime
  pure ⟨d, t.1, t.2⟩

/-- Completes the fields from a count of seconds, at an offset from universal
time. -/
def fromTimestamp (f : DateFields) (timestamp offset : Int) :
    Except FieldFault ClockReading := do
  let shown := timestamp + offset
  if !Date.supports (shown / 86400) then throw outOfRange
  let (shown, f) ←
    if f.second = some 60 then
      match shown % 60 with
      | 59 => pure (shown, f)
      | 0 => pure (shown - 1, f)
      | _ => throw contradiction
    else do
      let f ← f.enterNumber .second (shown % 60)
      pure (shown, f)
  let c := ClockReading.ofSeconds shown 0
  let f ← f.enterNumber .year c.date.year
  let f ← f.enterNumber .ordinal c.date.ordinal
  let f ← f.enterNumber .hour c.hour
  let f ← f.enterNumber .minute c.minute
  f.joined

/-- The clock reading the fields determine at an offset from universal time.  A
count of seconds must agree with the other fields, and completes them where they
do not suffice. -/
def toReading (f : DateFields) (offset : Int) : Except FieldFault ClockReading :=
  match f.toDate, f.toTime, f.timestamp with
  | .ok d, .ok t, stamp =>
    let c : ClockReading := ⟨d, t.1, t.2⟩
    let expected := c.seconds - offset
    let matching := stamp.all fun s => s == expected || (billion ≤ t.2 && s == expected + 1)
    if matching then pure c else throw contradiction
  | .error .outOfRange, _, some _ => throw outOfRange
  | _, .error .outOfRange, some _ => throw outOfRange
  | .error .contradiction, _, some _ => throw contradiction
  | _, .error .contradiction, some _ => throw contradiction
  | _, _, some stamp => f.fromTimestamp stamp offset
  | .error e, _, none => throw e
  | _, .error e, none => throw e

/-- The instant the fields determine.  A count of seconds stands for universal
time; without it an offset must have been read. -/
def toInstant (f : DateFields) : Except FieldFault Instant := do
  let offset ←
    match f.offset, f.timestamp with
    | some o, _ => pure o
    | none, some _ => pure 0
    | none, none => throw insufficient
  let c ← f.toReading offset
  if offset ≤ -86400 ∨ 86400 ≤ offset then throw outOfRange
  let i : Instant := ⟨c.seconds - offset, c.nanos⟩
  if i.isSupported then pure i else throw contradiction

end DateFields

end RowFormula.Calendar
