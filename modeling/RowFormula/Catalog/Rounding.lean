/-
# Rounding functions

Rounding without a number of places gives a whole number, rounding to places does not.
-/

import RowFormula.Function
import RowFormula.Number.Places

namespace RowFormula.Catalog

/-- A way of rounding. -/
def roundingFunction (name description : String) (rounding : Float → Float) :
    Function where
  name := name
  category := .rounding
  description := description
  signature := .optionalAfter 1 [.numeric, .numeric]
  result := .byArity .integer .double
  body := fun call args =>
    let places := (args[1]?).map Value.toNumber
    pure (.number call.resultKind (Number.roundToPlaces rounding (numberAt args 0) places))

/-- The four ways of rounding. -/
def rounding : List Function :=
  [roundingFunction "round"
      "Rounds half away from zero, optionally to a number of decimal places" Number.round,
    roundingFunction "rint"
      "Rounds half to even, optionally to a number of decimal places" Number.roundEven,
    roundingFunction "floor" "Rounds down, optionally to a number of decimal places"
      Number.floor,
    roundingFunction "ceil" "Rounds up, optionally to a number of decimal places"
      Number.ceil]

end RowFormula.Catalog
