/-
# Binomial coefficients

The number of ways to choose `k` out of `n`, computed in floating point from the
product of `k` quotients.
-/

import RowFormula.Number.Dyadic

namespace RowFormula.Number

/-- Multiplies `result` by `(n - k + i) / i` for all values of `i` up to `k`.  The counter
goes up by one in floating point, and there is no result if it does not pass `k` within
so many steps. -/
def binomialFrom (n k : Float) : (steps : Nat) → (i result : Float) → Option Float
  | 0, i, result => if i <= k then none else some result
  | steps + 1, i, result =>
    if i <= k then binomialFrom n k steps (i + 1.0) (result * (n - k + i) / i)
    else some result

/-- The coefficient for whole numbers with `0 ≤ k ≤ n`.  Choosing `k` is the same
as leaving `n - k`, so the shorter product is taken. -/
def binomialShort (n k : Float) : Option Float :=
  let short := if k < n - k then k else n - k
  (binomialFrom n short (toInt64 short).toNat 1.0 1.0).map round

/-- The coefficient, which needs whole numbers that are not negative.  It is
missing if one of them is, or if the product is too long to be taken. -/
def binomial? (n k : Float) : Option Float :=
  if n.isNaN || k.isNaN then some nan
  else if n < 0.0 || k < 0.0 || !isWhole n || !isWhole k then none
  else if k > n then some 0.0
  else some ((binomialShort n k).getD nan)

end RowFormula.Number
