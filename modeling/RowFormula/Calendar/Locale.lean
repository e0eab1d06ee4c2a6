/-
# Locales

How the languages of the supported locales name days and months, and which
patterns they use for the customary forms of date and time.
-/

namespace RowFormula.Calendar

/-- The conventions of a locale. -/
structure Locale where
  name : String
  /-- From Sunday on. -/
  shortDays : List String
  longDays : List String
  /-- From January on. -/
  shortMonths : List String
  longMonths : List String
  /-- The two halves of the day, which may be nameless. -/
  morning : String
  afternoon : String
  /-- The mark before the fraction of a second. -/
  point : String
  /-- Pattern of a date. -/
  datePattern : String
  /-- Pattern of a time of day. -/
  timePattern : String
  /-- Pattern of a time of day on a dial of twelve. -/
  dialPattern : String
  /-- Pattern of a date together with a time. -/
  fullPattern : String
  deriving Repr

namespace Locale

private def englishShortDays : List String :=
  ["Sun", "Mon", "Tue", "Wed", "Thu", "Fri", "Sat"]

private def englishLongDays : List String :=
  ["Sunday", "Monday", "Tuesday", "Wednesday", "Thursday", "Friday", "Saturday"]

private def englishShortMonths : List String :=
  ["Jan", "Feb", "Mar", "Apr", "May", "Jun", "Jul", "Aug", "Sep", "Oct", "Nov", "Dec"]

private def englishLongMonths : List String :=
  ["January", "February", "March", "April", "May", "June", "July", "August", "September",
    "October", "November", "December"]

/-- The conventions in force where no locale is named. -/
def standard : Locale where
  name := "POSIX"
  shortDays := englishShortDays
  longDays := englishLongDays
  shortMonths := englishShortMonths
  longMonths := englishLongMonths
  morning := "AM"
  afternoon := "PM"
  point := "."
  datePattern := "%m/%d/%y"
  timePattern := "%H:%M:%S"
  dialPattern := "%I:%M:%S %p"
  fullPattern := "%a %b %e %H:%M:%S %Y"

def americanEnglish : Locale :=
  { standard with
    name := "en_US"
    datePattern := "%m/%d/%Y"
    timePattern := "%I:%M:%S %p"
    fullPattern := "%a %d %b %Y %I:%M:%S %p %Z" }

def german : Locale where
  name := "de_DE"
  shortDays := ["So", "Mo", "Di", "Mi", "Do", "Fr", "Sa"]
  longDays :=
    ["Sonntag", "Montag", "Dienstag", "Mittwoch", "Donnerstag", "Freitag", "Samstag"]
  shortMonths :=
    ["Jan", "Feb", "Mär", "Apr", "Mai", "Jun", "Jul", "Aug", "Sep", "Okt", "Nov", "Dez"]
  longMonths :=
    ["Januar", "Februar", "März", "April", "Mai", "Juni", "Juli", "August", "September",
      "Oktober", "November", "Dezember"]
  morning := ""
  afternoon := ""
  point := ","
  datePattern := "%d.%m.%Y"
  timePattern := "%T"
  dialPattern := "%T"
  fullPattern := "%a %d %b %Y %T %Z"

def french : Locale where
  name := "fr_FR"
  shortDays := ["dim.", "lun.", "mar.", "mer.", "jeu.", "ven.", "sam."]
  longDays := ["dimanche", "lundi", "mardi", "mercredi", "jeudi", "vendredi", "samedi"]
  shortMonths :=
    ["janv.", "févr.", "mars", "avril", "mai", "juin", "juil.", "août", "sept.", "oct.",
      "nov.", "déc."]
  longMonths :=
    ["janvier", "février", "mars", "avril", "mai", "juin", "juillet", "août", "septembre",
      "octobre", "novembre", "décembre"]
  morning := ""
  afternoon := ""
  point := ","
  datePattern := "%d/%m/%Y"
  timePattern := "%T"
  dialPattern := "%T"
  fullPattern := "%a %d %b %Y %T %Z"

/-- The locales that formulas can name. -/
def all : List Locale := [german, french, americanEnglish, standard]

/-- Finds a locale by its exact name. -/
def ofName? (name : String) : Option Locale :=
  all.find? fun l => l.name == name

/-- The half of the day. -/
def halfDay (l : Locale) (afternoon : Bool) : String :=
  if afternoon then l.afternoon else l.morning

end Locale

end RowFormula.Calendar
