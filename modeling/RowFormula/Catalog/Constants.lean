/-
# Named constants

Truth values, missing values, numbers, and names: those of the kinds stand for
themselves, and those about dates for the words that the date functions take.
-/

import RowFormula.Context
import RowFormula.Number.Dyadic

namespace RowFormula.Catalog

/-- Euler's number. -/
def euler : Float := Float.ofBits 0x4005BF0A8B145769

/-- The ratio of a circle's circumference to its diameter. -/
def pi : Float := Float.ofBits 0x400921FB54442D18

/-- The names of kinds that formulas can write without quotes. -/
def kindNames : List String :=
  ["REAL", "DOUBLE", "NUMERICAL", "INTEGER", "NOMINAL", "POLYNOMINAL", "STRING", "TEXT",
    "BINOMINAL", "BOOLEAN", "DATE_TIME", "DATE", "TIME"]

/-- The words that date functions take, by the names of their constants. -/
def dateWords : List (String × String) :=
  [("DATE_UNIT_YEAR", "year"), ("DATE_UNIT_MONTH", "month"), ("DATE_UNIT_WEEK", "week"),
    ("DATE_UNIT_DAY", "day"), ("DATE_UNIT_HOUR", "hour"), ("DATE_UNIT_MINUTE", "minute"),
    ("DATE_UNIT_SECOND", "second"), ("DATE_UNIT_MILLISECOND", "millisecond"),
    ("DATE_SHORT", "short"), ("DATE_MEDIUM", "medium"), ("DATE_LONG", "long"),
    ("DATE_FULL", "full"), ("DATE_SHOW_DATE_ONLY", "date"), ("DATE_SHOW_TIME_ONLY", "time"),
    ("DATE_SHOW_DATE_AND_TIME", "date_time")]

/-- All constants. -/
def constants : Constants :=
  Table.ofList <|
    [("TRUE", .ofBool true), ("true", .ofBool true), ("FALSE", .ofBool false),
      ("false", .ofBool false), ("MISSING_NUMERIC", .missing .double),
      ("MISSING_NOMINAL", .missing .string), ("MISSING_DATE", .missing .date),
      ("e", .double euler), ("pi", .double pi), ("INFINITY", .double Number.infinity),
      ("NaN", .double Number.nan)] ++
    kindNames.map (fun name => (name, .ofString name)) ++
    dateWords.map (fun w => (w.1, .ofString w.2))

end RowFormula.Catalog
