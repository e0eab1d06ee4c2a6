/-
# Customary sizes of dates

Instead of a pattern one may name a size, from `short` to `full`, and the part of
the date to show.  Each size has one pattern for use without a locale, and one
that leaves the order of the fields to the locale.
-/

import RowFormula.Text.Blank

namespace RowFormula.Calendar

/-- How much room a date may take. -/
inductive DateSize where
  | short
  | medium
  | long
  | full
  deriving DecidableEq, Repr

/-- Which part of a date is shown. -/
inductive DatePart where
  | date
  | time
  | dateTime
  deriving DecidableEq, Repr

/-- A size or part that does not exist, as it was understood. -/
inductive StyleFault where
  | unknownSize (name : String)
  | unknownPart (name : String)
  deriving DecidableEq, Repr

namespace StyleFault

def message : StyleFault → String
  | unknownSize name => "unknown date size '" ++ name ++ "'"
  | unknownPart name => "unknown date part '" ++ name ++ "'"

end StyleFault

namespace DateSize

/-- Pattern of the date. -/
def datePattern (localized : Bool) : DateSize → String
  | short => if localized then "%x" else "%m/%d/%y"
  | medium => if localized then "%-d %b %Y" else "%b %-d, %Y"
  | long => if localized then "%-d %B %Y" else "%B %-d, %Y"
  | full => if localized then "%A, %-d %B %Y" else "%A, %B %-d, %Y"

/-- Pattern of the time of day. -/
def timePattern (localized : Bool) : DateSize → String
  | short => if localized then "%R" else "%-I:%M %p"
  | medium => if localized then "%X" else "%-I:%M:%S %p"
  | long | full => if localized then "%X %Z" else "%-I:%M:%S %p %Z"

end DateSize

/-- Size and part by name.  Case and surrounding blanks do not matter, and the size
is looked at first. -/
def readStyle (size part : String) : Except StyleFault (DateSize × DatePart) := do
  let size ←
    match Text.asciiLower (Text.trim size) with
    | "short" => pure DateSize.short
    | "medium" => pure DateSize.medium
    | "long" => pure DateSize.long
    | "full" => pure DateSize.full
    | other => throw (.unknownSize other)
  let part ←
    match Text.asciiLower (Text.trim part) with
    | "date" => pure DatePart.date
    | "time" => pure DatePart.time
    | "date_time" => pure DatePart.dateTime
    | other => throw (.unknownPart other)
  pure (size, part)

/-- The pattern for a size and part. -/
def stylePattern (localized : Bool) (size : DateSize) : DatePart → String
  | .date => size.datePattern localized
  | .time => size.timePattern localized
  | .dateTime => size.datePattern localized ++ " " ++ size.timePattern localized

end RowFormula.Calendar
