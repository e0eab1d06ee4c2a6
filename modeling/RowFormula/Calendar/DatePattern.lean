/-
# Date patterns

A date pattern is text in which `%` introduces a field.  `DatePattern.items?`
reads a pattern into items, and has no result when a field does not exist.  The
same items serve for writing and for reading dates.
-/

import RowFormula.Calendar.Locale
import RowFormula.Text.Blank

namespace RowFormula.Calendar

/-- Fields that are written as numbers. -/
inductive NumericField where
  | year
  | century
  | yearOfCentury
  | isoYear
  | isoYearOfCentury
  | quarter
  | month
  | day
  | weekFromSunday
  | weekFromMonday
  | isoWeek
  | daysFromSunday
  | weekdayFromMonday
  | ordinal
  | hour
  | hour12
  | minute
  | second
  | nanosecond
  | timestamp
  deriving DecidableEq, Repr

/-- How a number is filled up to its usual width. -/
inductive Padding where
  | zero
  | space
  | bare
  deriving DecidableEq, Repr

/-- How much of an offset from universal time is written. -/
inductive OffsetForm where
  | compact
  | minutes
  | seconds
  | hours
  deriving DecidableEq, Repr

/-- Fields that are written as words, fractions or offsets. -/
inductive NamedField where
  | shortMonth
  | longMonth
  | shortDay
  | longDay
  | smallHalfDay
  | halfDay
  /-- The fraction of a second with its mark, as long as it needs to be. -/
  | fraction
  /-- The fraction in a fixed number of places, with or without its mark. -/
  | fractionPlaces (places : Nat) (marked : Bool)
  | zoneName
  | offset (form : OffsetForm)
  /-- An offset that may lack its minutes or be a `Z`; it can only be read. -/
  | looseOffset
  /-- Date, time and offset in the form for exchange. -/
  | exchange
  deriving DecidableEq, Repr

/-- One step of writing or reading a date. -/
inductive PatternItem where
  | literal (text : List Char)
  | blank (text : List Char)
  | numeric (field : NumericField) (padding : Padding)
  | named (field : NamedField)
  deriving DecidableEq, Repr

namespace DatePattern

open NumericField

/-- A number filled up with zeros. -/
def zeroed (f : NumericField) : PatternItem := .numeric f .zero

/-- A number filled up with blanks. -/
def spaced (f : NumericField) : PatternItem := .numeric f .space

def lit (c : Char) : PatternItem := .literal [c]

def gap : PatternItem := .blank [' ']

/-- Hours, minutes and seconds with colons. -/
def clock : List PatternItem :=
  [zeroed hour, lit ':', zeroed minute, lit ':', zeroed second]

/-- The items of a field letter that stands for itself, without regard to any
locale. -/
def fieldItems? (c : Char) : Option (List PatternItem) :=
  match c with
  | 'A' => some [.named .longDay]
  | 'B' => some [.named .longMonth]
  | 'C' => some [zeroed century]
  | 'D' => some [zeroed month, lit '/', zeroed day, lit '/', zeroed yearOfCentury]
  | 'F' => some [zeroed year, lit '-', zeroed month, lit '-', zeroed day]
  | 'G' => some [zeroed isoYear]
  | 'H' => some [zeroed hour]
  | 'I' => some [zeroed hour12]
  | 'M' => some [zeroed minute]
  | 'P' => some [.named .smallHalfDay]
  | 'R' => some [zeroed hour, lit ':', zeroed minute]
  | 'S' => some [zeroed second]
  | 'T' => some clock
  | 'U' => some [zeroed weekFromSunday]
  | 'V' => some [zeroed isoWeek]
  | 'W' => some [zeroed weekFromMonday]
  | 'Y' => some [zeroed year]
  | 'Z' => some [.named .zoneName]
  | 'a' => some [.named .shortDay]
  | 'b' | 'h' => some [.named .shortMonth]
  | 'd' => some [zeroed day]
  | 'e' => some [spaced day]
  | 'f' => some [zeroed nanosecond]
  | 'g' => some [zeroed isoYearOfCentury]
  | 'j' => some [zeroed ordinal]
  | 'k' => some [spaced hour]
  | 'l' => some [spaced hour12]
  | 'm' => some [zeroed month]
  | 'n' => some [.blank ['\n']]
  | 'p' => some [.named .halfDay]
  | 'q' => some [.numeric quarter .bare]
  | 's' => some [.numeric timestamp .bare]
  | 't' => some [.blank ['\t']]
  | 'u' => some [.numeric weekdayFromMonday .bare]
  | 'v' => some [spaced day, lit '-', .named .shortMonth, lit '-', zeroed year]
  | 'w' => some [.numeric daysFromSunday .bare]
  | 'y' => some [zeroed yearOfCentury]
  | 'z' => some [.named (.offset .compact)]
  | '+' => some [.named .exchange]
  | '%' => some [lit '%']
  | _ => none

/-- The customary forms of date and time in a locale, as patterns. -/
def localePattern? (l : Locale) (c : Char) : Option String :=
  match c with
  | 'X' => some l.timePattern
  | 'c' => some l.fullPattern
  | 'r' => some l.dialPattern
  | 'x' => some l.datePattern
  | _ => none

/-- Fields of more than one letter, with the text after them. -/
def longField? : List Char → Option (PatternItem × List Char)
  | ':' :: ':' :: ':' :: 'z' :: rest => some (.named (.offset .hours), rest)
  | ':' :: ':' :: 'z' :: rest => some (.named (.offset .seconds), rest)
  | ':' :: 'z' :: rest => some (.named (.offset .minutes), rest)
  | '.' :: 'f' :: rest => some (.named .fraction, rest)
  | '.' :: '3' :: 'f' :: rest => some (.named (.fractionPlaces 3 true), rest)
  | '.' :: '6' :: 'f' :: rest => some (.named (.fractionPlaces 6 true), rest)
  | '.' :: '9' :: 'f' :: rest => some (.named (.fractionPlaces 9 true), rest)
  | '3' :: 'f' :: rest => some (.named (.fractionPlaces 3 false), rest)
  | '6' :: 'f' :: rest => some (.named (.fractionPlaces 6 false), rest)
  | '9' :: 'f' :: rest => some (.named (.fractionPlaces 9 false), rest)
  | '#' :: 'z' :: rest => some (.named .looseOffset, rest)
  | _ => none

/-- The padding that a flag after `%` asks for. -/
def paddingFlag? : Char → Option Padding
  | '-' => some .bare
  | '0' => some .zero
  | '_' => some .space
  | _ => none

/-- A field with a padding flag must be a single number. -/
def padded? (p : Padding) : List PatternItem → Option PatternItem
  | [.numeric f _] => some (.numeric f p)
  | _ => none

/-- Reads the text after `%` as a field of one or several items, with the text
after it.  `nested` gives the items of the customary forms. -/
def field? (nested : Char → Option (List PatternItem)) (cs : List Char) :
    Option (List PatternItem × List Char) :=
  match longField? cs with
  | some (item, rest) => some ([item], rest)
  | none =>
    match cs with
    | [] => none
    | c :: rest =>
      match paddingFlag? c, rest with
      | some p, c' :: rest' => do
        let items ← fieldItems? c'
        let item ← padded? p items
        some ([item], rest')
      | some _, [] => none
      | none, _ => do
        let items ← (fieldItems? c).or (nested c)
        some (items, rest)

/-- Reads a pattern.  Every step consumes at least one character, so the length of
the pattern bounds the number of steps. -/
def itemsWith? (nested : Char → Option (List PatternItem)) :
    (steps : Nat) → List Char → Option (List PatternItem)
  | _, [] => some []
  | 0, _ :: _ => none
  | steps + 1, c :: cs =>
    if c = '%' then do
      let (items, rest) ← field? nested cs
      let more ← itemsWith? nested steps rest
      some (items ++ more)
    else if Text.isBlank c then do
      let more ← itemsWith? nested steps (cs.dropWhile Text.isBlank)
      some (.blank (c :: cs.takeWhile Text.isBlank) :: more)
    else do
      let ordinary := fun x => !(x == '%' || Text.isBlank x)
      let more ← itemsWith? nested steps (cs.dropWhile ordinary)
      some (.literal (c :: cs.takeWhile ordinary) :: more)

/-- The items of a customary form, whose own pattern holds none. -/
def customary (l : Locale) (c : Char) : Option (List PatternItem) := do
  let pattern ← localePattern? l c
  itemsWith? (fun _ => none) pattern.length pattern.toList

/-- The items of a pattern, the customary forms being those of a locale.  There
are none when some field does not exist. -/
def items? (l : Locale) (pattern : String) : Option (List PatternItem) :=
  itemsWith? (customary l) pattern.length pattern.toList

end DatePattern

end RowFormula.Calendar
