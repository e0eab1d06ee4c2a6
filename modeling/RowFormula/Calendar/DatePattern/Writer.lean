/-
# Writing dates by patterns

Dates are written in universal time.  Every item writes one piece of text; only
an item that can merely be read writes none.
-/

import RowFormula.Calendar.DatePattern
import RowFormula.Calendar.Instant
import RowFormula.Number.Powers
import RowFormula.Text.Case

namespace RowFormula.Calendar.DatePattern

/-- A number below 256 in two characters.  Numbers from 100 on have no second
digit to their left, and the characters after `9` stand in for the missing
tens. -/
def pairText (n : Nat) (p : Padding) : String :=
  let tens := n / 10
  let ones := String.singleton (Char.ofNat ('0'.toNat + n % 10))
  match tens, p with
  | 0, .bare => ones
  | 0, .space => " " ++ ones
  | _, _ => String.singleton (Char.ofNat ('0'.toNat + tens)) ++ ones

/-- A number filled up to a width, in which a sign counts. -/
def wideText (width : Nat) (n : Int) (signed : Bool) (p : Padding) : String :=
  let digits := Text.decimal n.natAbs
  let sign := if n < 0 then "-" else if signed then "+" else ""
  let width := if signed then width + 1 else width
  match p with
  | .bare => sign ++ digits
  | .zero => sign ++ Text.padLeft (width - sign.length) '0' digits
  | .space => Text.padLeft width ' ' (sign ++ digits)

/-- A year in four digits, and with a sign outside 0 to 9999. -/
def yearPadded (year : Int) (p : Padding) : String :=
  wideText 4 year (!(0 ≤ year && year < 10000)) p

/-- The low eight bits of a number. -/
def octet (n : Int) : Nat := (n % 256).toNat

/-- Writes a number field. -/
def numericText (c : ClockReading) (f : NumericField) (p : Padding) : String :=
  let d := c.date
  match f with
  | .year => yearPadded d.year p
  | .century => pairText (octet (d.year / 100)) p
  | .yearOfCentury => pairText (octet (d.year % 100)) p
  | .isoYear => yearPadded d.isoYear p
  | .isoYearOfCentury => pairText (octet (d.isoYear % 100)) p
  | .quarter => Text.decimal ((d.month + 2) / 3)
  | .month => pairText d.month p
  | .day => pairText d.day p
  | .weekFromSunday => pairText (d.weekFrom .sunday) p
  | .weekFromMonday => pairText (d.weekFrom .monday) p
  | .isoWeek => pairText d.isoWeek p
  | .daysFromSunday => Text.decimal (d.weekday.daysSince .sunday)
  | .weekdayFromMonday => Text.decimal (d.weekday.index + 1)
  | .ordinal => wideText 3 d.ordinal false p
  | .hour => pairText c.hour p
  | .hour12 => pairText c.hour12 p
  | .minute => pairText c.minute p
  | .second => pairText c.shownSecond p
  | .nanosecond => wideText 9 (c.nanos % billion : Nat) false p
  | .timestamp => wideText 9 c.seconds false p

/-- The leading places of the fraction of a second. -/
def placesText (places : Nat) (nanos : Nat) : String :=
  Text.padLeft places '0' (Text.decimal (nanos % billion / Number.tenTo (9 - places)))

/-- Writes a field that is not a number.  A loose offset cannot be written. -/
def namedText? (l : Locale) (c : ClockReading) (f : NamedField) : Option String :=
  let sunday := c.date.weekday.daysSince .sunday
  match f with
  | .shortMonth => some (l.shortMonths.getD (c.date.month - 1) "")
  | .longMonth => some (l.longMonths.getD (c.date.month - 1) "")
  | .shortDay => some (l.shortDays.getD sunday "")
  | .longDay => some (l.longDays.getD sunday "")
  | .smallHalfDay => some (Text.lower (l.halfDay c.isAfternoon))
  | .halfDay => some (l.halfDay c.isAfternoon)
  | .fraction => some (ClockReading.fractionText l.point c.nanos)
  | .fractionPlaces places marked =>
    some ((if marked then l.point else "") ++ placesText places c.nanos)
  | .zoneName => some "UTC"
  | .offset .compact => some "+0000"
  | .offset .minutes => some "+00:00"
  | .offset .seconds => some "+00:00:00"
  | .offset .hours => some "+00"
  | .looseOffset => none
  | .exchange => some (c.exactText "T" ++ "+00:00")

/-- Writes one item. -/
def itemText? (l : Locale) (c : ClockReading) : PatternItem → Option String
  | .literal text => some (String.ofList text)
  | .blank text => some (String.ofList text)
  | .numeric f p => some (numericText c f p)
  | .named f => namedText? l c f

/-- Writes an instant in universal time.  There is no text when the pattern holds
a field that does not exist, or one that can only be read. -/
def write? (l : Locale) (pattern : String) (i : Instant) : Option String := do
  let items ← items? l pattern
  let texts ← items.mapM (itemText? l i.utc)
  some (String.join texts)

end RowFormula.Calendar.DatePattern
