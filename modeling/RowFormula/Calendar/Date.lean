/-
# Calendar dates

Dates of the proleptic Gregorian calendar, with astronomical year numbers (year
zero exists), between the years `minYear` and `maxYear`.  A date and its day
number, counted from 1970-01-01, determine each other: `Date.dayNumber` and
`Date.ofDayNumber`.
-/

namespace RowFormula.Calendar

/-- The days of the week. -/
inductive Weekday where
  | monday
  | tuesday
  | wednesday
  | thursday
  | friday
  | saturday
  | sunday
  deriving DecidableEq, Repr, Inhabited

namespace Weekday

/-- Days since Monday. -/
def index : Weekday → Nat
  | monday => 0
  | tuesday => 1
  | wednesday => 2
  | thursday => 3
  | friday => 4
  | saturday => 5
  | sunday => 6

/-- The day of the week so many days after a Monday. -/
def ofIndex (n : Nat) : Weekday :=
  match n % 7 with
  | 0 => monday
  | 1 => tuesday
  | 2 => wednesday
  | 3 => thursday
  | 4 => friday
  | 5 => saturday
  | _ => sunday

/-- Days from the last `first` up to this day, `first` itself giving zero. -/
def daysSince (day first : Weekday) : Nat :=
  (day.index + 7 - first.index) % 7

@[simp]
theorem ofIndex_index (d : Weekday) : ofIndex d.index = d := by
  cases d <;> rfl

end Weekday

/-- The first and last supported years. -/
def minYear : Int := -262143

def maxYear : Int := 262142

/-- Whether a year has a leap day. -/
def isLeapYear (year : Int) : Bool :=
  year % 4 == 0 && (year % 100 != 0 || year % 400 == 0)

/-- Number of days of a year. -/
def daysInYear (year : Int) : Nat :=
  if isLeapYear year then 366 else 365

/-- The lengths of the months of a year. -/
def monthLengths (year : Int) : List Nat :=
  [31, if isLeapYear year then 29 else 28, 31, 30, 31, 30, 31, 31, 30, 31, 30, 31]

/-- Number of days of a month, counted from one; zero for any other number. -/
def daysInMonth (year : Int) (month : Nat) : Nat :=
  if month = 0 then 0 else (monthLengths year).getD (month - 1) 0

/-- Days of a year before the first of a month. -/
def daysBeforeMonth (year : Int) (month : Nat) : Nat :=
  ((monthLengths year).take (month - 1)).foldr (· + ·) 0

/-- The day number of the first of January, counted from 1970-01-01. -/
def yearStart (year : Int) : Int :=
  let y := year - 1
  365 * y + y / 4 - y / 100 + y / 400 - 719162

/-- The year that contains a day.  The estimate by the mean length of a year is
off by at most one. -/
def yearOfDay (day : Int) : Int :=
  let estimate := 400 * (day + 719162) / 146097 + 1
  if day < yearStart estimate then estimate - 1
  else if yearStart (estimate + 1) ≤ day then estimate + 1
  else estimate

/-- Finds the month and the day in it from a count of days since the start of the
year, given the lengths of the months that remain. -/
def monthAndDay : (lengths : List Nat) → (month rest : Nat) → Nat × Nat
  | [], month, rest => (month, rest + 1)
  | length :: lengths, month, rest =>
    if rest < length then (month, rest + 1)
    else monthAndDay lengths (month + 1) (rest - length)

/-- A date by year, month and day, both counted from one. -/
structure Date where
  year : Int
  month : Nat
  day : Nat
  deriving DecidableEq, Repr, Inhabited

namespace Date

/-- Whether such a day exists. -/
def exists? (d : Date) : Bool :=
  1 ≤ d.day && d.day ≤ daysInMonth d.year d.month && minYear ≤ d.year && d.year ≤ maxYear

/-- The date with these parts, if it exists. -/
def ofParts? (year : Int) (month day : Nat) : Option Date :=
  let d : Date := ⟨year, month, day⟩
  if d.exists? then some d else none

/-- The number of a day in its year, counted from one. -/
def ordinal (d : Date) : Nat :=
  daysBeforeMonth d.year d.month + d.day

/-- Days since 1970-01-01. -/
def dayNumber (d : Date) : Int :=
  yearStart d.year + d.ordinal - 1

/-- The date with a day number, in any year. -/
def ofDayNumber (n : Int) : Date :=
  let year := yearOfDay n
  let (month, day) := monthAndDay (monthLengths year) 1 (n - yearStart year).toNat
  ⟨year, month, day⟩

/-- Whether a day number lies in a supported year. -/
def supports (n : Int) : Bool :=
  yearStart minYear ≤ n && n < yearStart (maxYear + 1)

/-- The date with a day number, if its year is supported. -/
def ofDayNumber? (n : Int) : Option Date :=
  if supports n then some (ofDayNumber n) else none

/-- The date with a number in its year, counted from one. -/
def ofOrdinal? (year : Int) (ordinal : Nat) : Option Date :=
  if 1 ≤ ordinal ∧ ordinal ≤ daysInYear year then ofDayNumber? (yearStart year + ordinal - 1)
  else none

/-- The day of the week of a day number; 1970-01-01 was a Thursday. -/
def weekdayOf (n : Int) : Weekday :=
  Weekday.ofIndex ((n + 3) % 7).toNat

def weekday (d : Date) : Weekday :=
  weekdayOf d.dayNumber

/-- The number of the week of a day when weeks start on `first` and the days
before the year's first such day are in week zero. -/
def weekFrom (first : Weekday) (d : Date) : Nat :=
  (d.ordinal + 6 - d.weekday.daysSince first) / 7

/-- The Monday of the first ISO week of a year, the week with January 4. -/
def isoYearStart (year : Int) : Int :=
  let fourth := yearStart year + 3
  fourth - (weekdayOf fourth).index

/-- The ISO year of a day, which differs from the calendar year in the weeks that
straddle its ends. -/
def isoYear (d : Date) : Int :=
  let n := d.dayNumber
  if n < isoYearStart d.year then d.year - 1
  else if isoYearStart (d.year + 1) ≤ n then d.year + 1
  else d.year

/-- The ISO week of a day, counted from one. -/
def isoWeek (d : Date) : Nat :=
  ((d.dayNumber - isoYearStart d.isoYear) / 7 + 1).toNat

/-- Number of ISO weeks of a year. -/
def isoWeeks (year : Int) : Nat :=
  ((isoYearStart (year + 1) - isoYearStart year) / 7).toNat

/-- The date with this ISO year, week and day of the week. -/
def ofIsoWeek? (year : Int) (week : Nat) (day : Weekday) : Option Date :=
  if 1 ≤ week ∧ week ≤ isoWeeks year then
    ofDayNumber? (isoYearStart year + 7 * (week - 1) + day.index)
  else none

/-- Moves by whole months.  A day that the new month does not have becomes its
last day. -/
def addMonths? (d : Date) (months : Int) : Option Date :=
  let total := 12 * d.year + (d.month - 1) + months
  let year := total / 12
  let month := (total % 12).toNat + 1
  ofParts? year month (min d.day (daysInMonth year month))

end Date

end RowFormula.Calendar
