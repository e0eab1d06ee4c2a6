/-
# Conversions between numbers and texts
-/

import RowFormula.Function
import RowFormula.Number.Read

namespace RowFormula.Catalog

/-- The text of a number: a whole number of integer kind as it is, and any other with
three places.  Averages and negative powers leave fractions in values of integer
kind. -/
def numberText? : Value → Option String
  | .integer x => if Number.isWhole x then Number.minimalText? x else Number.fixedText? x
  | v => Number.fixedText? v.toNumber

/-- Reading numbers from texts and writing them. -/
def conversion : List Function :=
  [{ name := "parse"
     category := .conversion
     description := "Parses text as a number; NaN when the text is not a number"
     signature := .all [.single .string]
     result := .fixed .double
     body := fun _ args =>
       pure (.double (((textAt? args 0).map Number.ofText).getD Number.nan)) },
    { name := "str"
      category := .conversion
      description := "Renders a number as text, with three decimals for non-integers"
      signature := .all [.numeric]
      result := .fixed .string
      body := fun call args => do
        pure (.string (numberText? (← call.argument args 0))) }]

end RowFormula.Catalog
