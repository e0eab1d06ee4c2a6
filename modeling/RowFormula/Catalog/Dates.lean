/-
# Date functions

Where a function takes a zone, its calendar arithmetic happens on the clocks of that
zone; without one it happens in universal time.  A zone or locale that does not exist is
rejected even if another argument is missing.
-/

import RowFormula.Calendar.DatePattern.Writer
import RowFormula.Calendar.DateText
import RowFormula.Calendar.Style
import RowFormula.Calendar.Unit
import RowFormula.Function
import RowFormula.Text.Search

namespace RowFormula.Catalog

open Calendar

/-- The whole part of an amount; nothing for a missing or infinite one. -/
def wholeAmount? (x : Float) : Option Int :=
  if x.isFinite then some (Number.toInt64 x) else none

/-- The zone named at a position, or universal time. -/
def zoneAt (call : Call) (args : List Value) (position : Nat) :
    Evaluation EvaluationFault Zone :=
  match textAt? args position with
  | none => pure Zone.utc
  | some name => call.require (.unknownZone name) (Zone.ofName? (Text.trim name))

def unitOfName (call : Call) (name : String) : Evaluation EvaluationFault DateUnit :=
  call.require (.unknownDateUnit name) (DateUnit.ofName? name)

/-- The locale of a name, in which a hyphen may stand for the underscore. -/
def localeOfName (call : Call) (name : String) : Evaluation EvaluationFault Calendar.Locale :=
  call.require (.unknownLocale name)
    (Calendar.Locale.ofName? (Text.replace (Text.trim name) "-" "_"))

/-- The locale named at a position, or the standard one. -/
def localeAt (call : Call) (args : List Value) (position : Nat) :
    Evaluation EvaluationFault Calendar.Locale :=
  match textAt? args position with
  | none => pure Calendar.Locale.standard
  | some name => localeOfName call name

/-- What a fault of calendar arithmetic means for the function that asked for it.  No
function provides for a date that the clocks of its zone cannot show. -/
def rejectionOf (fault : UnitFault) : Rejection :=
  match fault with
  | .unshown _ => .brokenOff fault.message
  | _ => .invalidArgument fault.message

/-- The result of calendar arithmetic. -/
def orReject {α : Type} (call : Call) (x : Except UnitFault α) :
    Evaluation EvaluationFault α :=
  match x with
  | .ok a => pure a
  | .error fault => call.reject (rejectionOf fault)

/-- Writes a date by a pattern. -/
def writeDate (call : Call) (l : Calendar.Locale) (pattern : String) (d : Instant) :
    Evaluation EvaluationFault Value := do
  let text ← call.require (.invalidDatePattern pattern) (DatePattern.write? l pattern d)
  pure (.ofString text)

/-- The pattern of a size and part by name. -/
def patternOfStyle (call : Call) (localized : Bool) (size part : String) :
    Evaluation EvaluationFault String :=
  match readStyle size part with
  | .ok (size, part) => pure (stylePattern localized size part)
  | .error fault => call.reject (.invalidArgument fault.message)

/-- A yes-or-no question about two dates. -/
def datePredicate (name description : String) (test : Instant → Instant → Bool) :
    Function where
  name := name
  category := .date
  description := description
  signature := .all [.single .date, .single .date]
  result := .fixed .boolean
  body := fun _ args =>
    match instantAt? args 0, instantAt? args 1 with
    | some a, some b => pure (.ofBool (test a b))
    | _, _ => pure (.missing .boolean)

/-- A date that results from a date, an amount and a unit. -/
def dateShift (name description : String)
    (f : Zone → Instant → Int → DateUnit → Except UnitFault Instant) : Function where
  name := name
  category := .date
  description := description
  signature := .optionalAfter 3 [.single .date, .numeric, .single .string, .single .string]
  result := .fixed .date
  body := fun call args => do
    let zone ← zoneAt call args 3
    match instantAt? args 0, wholeAmount? (numberAt args 1), textAt? args 2 with
    | some d, some amount, some name => do
      let unit ← unitOfName call name
      pure (.ofInstant (← orReject call (f zone d amount unit)))
    | _, _, _ => pure (.missing .date)

/-- One unit of a date as a number. -/
def dateField : Function where
  name := "date_get"
  category := .date
  description := "Reads one unit of a date; months count from 1, weeks are ISO weeks"
  signature := .optionalAfter 2 [.single .date, .single .string, .single .string]
  result := .fixed .integer
  body := fun call args => do
    let zone ← zoneAt call args 2
    match instantAt? args 0, textAt? args 1 with
    | some d, some name => do
      let unit ← unitOfName call name
      pure (.integer (Number.ofInt (zone.get d unit)))
    | _, _ => pure (.missing .integer)

/-- Questions about dates and arithmetic with them. -/
def date : List Function :=
  [{ name := "date_now"
     category := .date
     description := "The current date and time"
     signature := .all []
     result := .fixed .date
     body := fun call _ => pure (.ofInstant call.now) },
    datePredicate "date_before" "Whether the first date is before the second"
      fun a b => a.before b,
    datePredicate "date_after" "Whether the first date is after the second"
      fun a b => b.before a,
    { name := "date_diff"
      category := .date
      description := "Milliseconds from the first date to the second"
      signature := .all [.single .date, .single .date]
      result := .fixed .integer
      body := fun _ args =>
        match instantAt? args 0, instantAt? args 1 with
        | some a, some b => pure (.integer (Number.ofInt (Instant.elapsedMillis a b)))
        | _, _ => pure (.missing .integer) },
    { name := "date_millis"
      category := .date
      description := "Milliseconds since the Unix epoch"
      signature := .all [.single .date]
      result := .fixed .integer
      body := fun _ args =>
        match instantAt? args 0 with
        | some d => pure (.integer (Number.ofInt d.millis))
        | none => pure (.missing .integer) },
    dateShift "date_add" "Adds an amount of a unit to a date, optionally in a time zone"
      Zone.add,
    dateShift "date_set" "Sets one unit of a date, optionally in a time zone" Zone.set,
    dateField]

/-- The date that a text or a number of milliseconds denotes. -/
def dateOf? : Value → Option Instant
  | .string text => text.bind readDateText?
  | v => (wholeAmount? v.toNumber).bind Instant.ofMillis?

/-- Reading a date by a pattern. -/
def dateReading : Function where
  name := "date_parse_custom"
  category := .conversion
  description := "Date from text using a strftime pattern"
  signature := .all [.single .string, .single .string]
  result := .fixed .date
  body := fun call args =>
    match textAt? args 0, textAt? args 1 with
    | some text, some pattern => do
      let items ← call.require (.invalidDatePattern pattern)
        (DatePattern.items? .standard pattern)
      pure (.date (DatePattern.readAny? items text))
    | _, _ => pure (.missing .date)

/-- Writing a date in a customary size. -/
def dateWriting : Function where
  name := "date_str"
  category := .conversion
  description := "Renders a date in a size (DATE_SHORT ...) and part (DATE_SHOW_DATE_ONLY ...)"
  signature := .all [.single .date, .single .string, .single .string]
  result := .fixed .string
  body := fun call args =>
    match instantAt? args 0, textAt? args 1, textAt? args 2 with
    | some d, some size, some part => do
      writeDate call .standard (← patternOfStyle call false size part) d
    | _, _, _ => pure (.missing .string)

/-- Writing a date in a size that is customary in a locale. -/
def localDateWriting : Function where
  name := "date_str_loc"
  category := .conversion
  description := "Renders a date in a size and part for a locale such as de_DE"
  signature := .all [.single .date, .single .string, .single .string, .single .string]
  result := .fixed .string
  body := fun call args =>
    match instantAt? args 0, textAt? args 1, textAt? args 2, textAt? args 3 with
    | some d, some size, some part, some name => do
      let pattern ← patternOfStyle call true size part
      writeDate call (← localeOfName call name) pattern d
    | _, _, _, _ => pure (.missing .string)

/-- Writing a date by a pattern. -/
def patternDateWriting : Function where
  name := "date_str_custom"
  category := .conversion
  description := "Renders a date with a strftime pattern, optionally for a locale"
  signature := .optionalAfter 2 [.single .date, .single .string, .single .string]
  result := .fixed .string
  body := fun call args => do
    let l ← localeAt call args 2
    match instantAt? args 0, textAt? args 1 with
    | some d, some pattern => writeDate call l pattern d
    | _, _ => pure (.missing .string)

/-- Reading dates from texts and writing them. -/
def dateConversion : List Function :=
  [{ name := "date_parse"
     category := .conversion
     description := "Date from epoch milliseconds or from ISO-like text"
     signature := .all [.ofList [.integer, .double, .string]]
     result := .fixed .date
     body := fun call args => do pure (.date (dateOf? (← call.argument args 0))) },
    dateReading, dateWriting, localDateWriting, patternDateWriting]

end RowFormula.Catalog
