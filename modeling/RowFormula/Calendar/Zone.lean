/-
# Time zones

A zone says for every instant how far its clocks are ahead of universal time.
The instants at which its clocks show a given reading follow from that: they are
the reading less each offset of the zone at which the offset is really in force.
`Zone.earliest?` picks the first of them, and finds none for a reading that the
clocks skip.
-/

import RowFormula.Calendar.Instant

namespace RowFormula.Calendar

/-- Which of the days of the week of one name in a month. -/
inductive Occurrence where
  | nth (n : Nat)
  | last
  deriving DecidableEq, Repr

/-- A moment of every year: so many seconds of universal time after midnight of
some Sunday of a month. -/
structure YearlyMoment where
  month : Nat
  sunday : Occurrence
  seconds : Int
  deriving DecidableEq, Repr

namespace YearlyMoment

/-- Day number of the Sunday in a year. -/
def sundayOf (m : YearlyMoment) (year : Int) : Int :=
  let first := (Date.mk year m.month 1).dayNumber
  let firstSunday := first + (6 - (Date.weekdayOf first).index : Nat)
  match m.sunday with
  | .nth n => firstSunday + 7 * (n - 1 : Nat)
  | .last =>
    let length := daysInMonth year m.month
    firstSunday + 7 * ((length - 1 - (firstSunday - first).toNat) / 7 : Nat)

/-- Seconds since 1970 at which the moment falls in a year. -/
def inYear (m : YearlyMoment) (year : Int) : Int :=
  m.sundayOf year * 86400 + m.seconds

end YearlyMoment

/-- How the offset of a zone varies. -/
inductive OffsetRule where
  /-- Always the same offset. -/
  | fixed (offset : Int)
  /-- Summer time from one moment of the year to another. -/
  | summer (standard daylight : Int) (starts ends : YearlyMoment)
  /-- A first offset and the later ones, each with the number of seconds since 1970 from
  which on it is in force. -/
  | changes (first : Int) (later : List (Int × Int))
  deriving DecidableEq, Repr

namespace OffsetRule

/-- The offset in force after changes in the order of time. -/
def offsetAfter (offset : Int) : List (Int × Int) → Int → Int
  | [], _ => offset
  | (moment, next) :: later, t => if t < moment then offset else offsetAfter next later t

/-- Seconds by which clocks are ahead at a number of seconds since 1970. -/
def offsetAt : OffsetRule → Int → Int
  | fixed offset, _ => offset
  | summer standard daylight starts ends, t =>
    let year := yearOfDay (t / 86400)
    let start := starts.inYear year
    let stop := ends.inYear year
    let isSummer :=
      if start < stop then start ≤ t && t < stop else !(stop ≤ t && t < start)
    if isSummer then daylight else standard
  | changes first later, t => offsetAfter first later t

/-- All offsets that the zone ever has. -/
def offsets : OffsetRule → List Int
  | fixed offset => [offset]
  | summer standard daylight _ _ => [standard, daylight]
  | changes first later => first :: later.map Prod.snd

theorem offsetAfter_mem (offset : Int) (later : List (Int × Int)) (t : Int) :
    offsetAfter offset later t ∈ offset :: later.map Prod.snd := by
  induction later generalizing offset with
  | nil => simp [offsetAfter]
  | cons change later ih =>
    rw [offsetAfter]
    split
    · exact List.mem_cons_self
    · exact List.mem_cons_of_mem offset (ih change.2)

theorem offsetAt_mem_offsets (r : OffsetRule) (t : Int) : r.offsetAt t ∈ r.offsets := by
  cases r with
  | fixed offset => simp [offsetAt, offsets]
  | summer standard daylight starts ends =>
    simp only [offsetAt, offsets]
    split <;> split <;> simp
  | changes first later => exact offsetAfter_mem first later t

end OffsetRule

/-- A named time zone. -/
structure Zone where
  name : String
  rule : OffsetRule
  deriving DecidableEq, Repr

namespace Zone

/-- Universal time. -/
def utc : Zone := ⟨"UTC", .fixed 0⟩

/-- Seconds of some hours and minutes. -/
def hours (h : Int) (m : Int) : Int := 3600 * h + 60 * m

/-- The zones that formulas can name. -/
def all : List Zone :=
  [ utc,
    ⟨"GMT", .fixed 0⟩,
    ⟨"Etc/GMT+5", .fixed (hours (-5) 0)⟩,
    ⟨"Europe/Berlin",
      .summer (hours 1 0) (hours 2 0) ⟨3, .last, hours 1 0⟩ ⟨10, .last, hours 1 0⟩⟩,
    ⟨"America/New_York",
      .summer (hours (-5) 0) (hours (-4) 0) ⟨3, .nth 2, hours 7 0⟩ ⟨11, .nth 1, hours 6 0⟩⟩,
    ⟨"Asia/Kolkata", .fixed (hours 5 30)⟩,
    ⟨"Australia/Lord_Howe",
      .summer (hours 10 30) (hours 11 0)
        ⟨10, .nth 1, hours (-8) (-30)⟩ ⟨4, .nth 1, hours (-9) 0⟩⟩,
    ⟨"Pacific/Apia",
      .changes (hours (-10) 0)
        [((Date.mk 2011 12 30).dayNumber * 86400 + hours 10 0, hours 14 0)]⟩ ]

/-- Finds a zone by its exact name. -/
def ofName? (name : String) : Option Zone :=
  all.find? fun z => z.name == name

/-- What the clocks of the zone show at an instant. -/
def reading (z : Zone) (i : Instant) : ClockReading :=
  ClockReading.ofSeconds (i.seconds + z.rule.offsetAt i.seconds) i.nanos

/-- Whether the clocks of the zone show a supported year at an instant. -/
def shows (z : Zone) (i : Instant) : Bool :=
  Date.supports ((i.seconds + z.rule.offsetAt i.seconds) / 86400)

/-- All instants, as seconds since 1970, at which the clocks of the zone are so
many seconds after their own start of 1970. -/
def instantsOf (z : Zone) (localSeconds : Int) : List Int :=
  (z.rule.offsets.map (localSeconds - ·)).filter fun t =>
    t + z.rule.offsetAt t == localSeconds

/-- The first instant at which the clocks of the zone show a reading. -/
def earliest? (z : Zone) (c : ClockReading) : Option Instant :=
  match (z.instantsOf c.seconds).min? with
  | none => none
  | some t =>
    let i : Instant := ⟨t, c.nanos⟩
    if i.isSupported then some i else none

theorem mem_instantsOf {z : Zone} {localSeconds t : Int} :
    t ∈ z.instantsOf localSeconds ↔ t + z.rule.offsetAt t = localSeconds := by
  simp only [instantsOf, List.mem_filter, List.mem_map, beq_iff_eq, and_iff_right_iff_imp]
  intro h
  exact ⟨_, z.rule.offsetAt_mem_offsets t, by omega⟩

end Zone

end RowFormula.Calendar
