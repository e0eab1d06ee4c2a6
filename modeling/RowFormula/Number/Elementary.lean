/-
# Elementary functions

The functions of analysis that formulas can call.  Where a function is defined by
cases, the cases stand here; the logarithms, exponentials and trigonometric
functions themselves are those of the floating-point library.
-/

import RowFormula.Number.Dyadic

namespace RowFormula.Number

/-- Powers.  A power with exponent zero is one, and so is every power of one, even
where the other number is missing. -/
def power (x y : Float) : Float :=
  if y == 0.0 || x == 1.0 then 1.0
  else if x.isNaN || y.isNaN then nan
  else Float.pow x y

/-- The sign of a number: -1, 0 or 1.  Zero keeps its own sign bit, and the
missing number stays missing. -/
def sign (x : Float) : Float :=
  if x.isNaN || x == 0.0 then x * 0.0 else signum x

/-- The inverse of the hyperbolic sine.  Its argument is doubled on the way, which
takes the largest numbers to an infinity. -/
def arsinh (x : Float) : Float :=
  if (x + x).isInf then x + x else Float.asinh x

/-- The inverse of the hyperbolic cosine, by its logarithmic form. -/
def arcosh (x : Float) : Float :=
  if x < 1.0 then nan else Float.log (x + Float.sqrt (x - 1.0) * Float.sqrt (x + 1.0))

/-- The smaller of two numbers that are not missing; the first if they are equal. -/
def smaller (a b : Float) : Float :=
  if b < a then b else a

/-- The larger of two numbers that are not missing; the first if they are equal. -/
def larger (a b : Float) : Float :=
  if b > a then b else a

/-- Folds numbers from the left.  One missing number makes the result missing. -/
def foldPresent (f : Float → Float → Float) : (start : Float) → List Float → Float
  | acc, [] => acc
  | acc, x :: xs => if x.isNaN then nan else foldPresent f (f acc x) xs

end RowFormula.Number
