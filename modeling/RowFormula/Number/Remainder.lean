/-
# Remainders

The remainder of a division with the quotient cut off toward zero.  It is computed
exactly: both numbers are brought to a common exponent, and the remainder of the
mantissas is the mantissa of the remainder.
-/

import RowFormula.Number.Dyadic

namespace RowFormula.Number

namespace Dyadic

/-- The remainder of two finite numbers, with the sign of the first.  Its mantissa
is below that of the number with the smaller exponent, so it is a number again. -/
def remainder (x y : Dyadic) : Dyadic :=
  let e := min x.exponent y.exponent
  let m := x.mantissa * twoTo (x.exponent - e).toNat % (y.mantissa * twoTo (y.exponent - e).toNat)
  ⟨x.negative, m, e⟩

end Dyadic

/-- The remainder of `x` divided by `y`.  There is none of an infinity and none by
zero, and division by an infinity leaves `x`. -/
def remainder (x y : Float) : Float :=
  if x.isNaN || y.isNaN || !x.isFinite then nan
  else if y.isFinite then
    let d := Dyadic.ofFloat y
    if d.mantissa = 0 then nan else (Dyadic.remainder (Dyadic.ofFloat x) d).toFloat
  else x

end RowFormula.Number
