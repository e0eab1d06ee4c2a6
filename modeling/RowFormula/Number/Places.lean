/-
# Rounding to decimal places

Rounding to a number of places scales by a power of ten, rounds to a whole number
and scales back, all in floating point.
-/

import RowFormula.Number.Dyadic

namespace RowFormula.Number

/-- Multiplies `result` by `base ^ n` through repeated squaring, in floating point.
The exponent is halved in each step, so any `steps` above its binary length will
do. -/
def powerBySquaring : (steps n : Nat) → (base result : Float) → Float
  | 0, _, _, result => result
  | steps + 1, n, base, result =>
    let result := if n % 2 = 1 then result * base else result
    if n / 2 = 0 then result else powerBySquaring steps (n / 2) (base * base) result

/-- Ten to a natural power, in floating point. -/
def powerOfTen (n : Nat) : Float :=
  powerBySquaring (n + 1) n 10.0 1.0

/-- Beyond this many places scaling would overflow. -/
def maxPlaces : Float := 300.0

/-- Rounds by `rounding` at a number of decimal places, which are cut to a whole
number and may be negative.  Missing places count as none at all, infinitely many
leave the number as it is, and infinitely few leave nothing. -/
def roundToPlaces (rounding : Float → Float) (x : Float) : (places : Option Float) → Float
  | none => rounding x
  | some p =>
    if p.isNaN then rounding x
    else if p == infinity then x
    else if p == negInfinity then nan
    else
      let digits := trunc p
      if !x.isFinite || digits >= maxPlaces then x
      else if digits <= -maxPlaces then rounding 0.0 * signum x
      else
        let scale := powerOfTen (toInt64 digits).natAbs
        if digits >= 0.0 then rounding (x * scale) / scale
        else rounding (x / scale) * scale

end RowFormula.Number
