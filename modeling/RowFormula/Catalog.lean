/-
# The catalog

All functions that formulas know without anything being registered.
-/

import RowFormula.Catalog.Bits
import RowFormula.Catalog.Constants
import RowFormula.Catalog.Conversion
import RowFormula.Catalog.Dates
import RowFormula.Catalog.Indirection
import RowFormula.Catalog.Logic
import RowFormula.Catalog.Numeric
import RowFormula.Catalog.Process
import RowFormula.Catalog.Rounding
import RowFormula.Catalog.Statistics
import RowFormula.Catalog.Transformation

namespace RowFormula.Catalog

/-- The functions by section. -/
def functions : List Function :=
  arithmetic ++ logical ++ comparison ++ bitwise ++ conversion ++ dateConversion ++ date ++
    mathematical ++ rounding ++ statistical ++ stringInformation ++ stringTransformation ++
    trigonometric ++ process ++ indirection

/-- The registry of all functions. -/
def registry : Registry := Registry.ofList functions

end RowFormula.Catalog
