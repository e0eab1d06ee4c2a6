/-
# Dates in plain text

The forms in which a date may stand in a text that names no pattern.  The form
for exchange comes first, then forms with a time of day, then bare dates.
-/

import RowFormula.Calendar.DatePattern.Reader

namespace RowFormula.Calendar

/-- Forms with a time of day. -/
def dateTimeForms : List String :=
  ["%Y-%m-%d %H:%M:%S%.f", "%Y-%m-%d %H:%M:%S", "%Y-%m-%dT%H:%M:%S%.f", "%Y-%m-%dT%H:%M:%S",
    "%Y-%m-%d %H:%M"]

/-- Forms of bare dates. -/
def dateForms : List String := ["%Y-%m-%d", "%m/%d/%Y"]

/-- Tries forms in order. -/
def readForms? (read : List PatternItem → String → Option Instant) (forms : List String)
    (text : String) : Option Instant :=
  forms.findSome? fun form => (DatePattern.items? .standard form).bind fun items =>
    read items text

/-- Reads a date from text.  Blanks around it do not matter. -/
def readDateText? (text : String) : Option Instant :=
  let text := Text.trim text
  (DatePattern.readExchange? text).or
    ((readForms? DatePattern.readDateTime? dateTimeForms text).or
      (readForms? DatePattern.readDate? dateForms text))

end RowFormula.Calendar
