/-
# Shortest decimals

The shortest decimal of a number is the one with the fewest digits among those
that read back as that number, and the nearest of them.  The search walks the
decimal grids from coarse to fine.  On each grid only the two neighbours of the
exact value can lie in the interval that rounds to the number, so two exact
comparisons decide a grid.
-/

import RowFormula.Number.Dyadic

namespace RowFormula.Number

/-- The decimal `digits · 10 ^ exponent`. -/
structure Decimal where
  digits : Nat
  exponent : Int
  deriving DecidableEq, Repr

namespace Decimal

/-- Number of decimal digits. -/
def digitCount (n : Nat) : Nat :=
  (Nat.toDigits 10 n).length

/-- Strips trailing zeros, at most `fuel` of them. -/
def stripZeros : (fuel : Nat) → Decimal → Decimal
  | 0, d => d
  | fuel + 1, d =>
    if d.digits ≠ 0 ∧ d.digits % 10 = 0 then stripZeros fuel ⟨d.digits / 10, d.exponent + 1⟩
    else d

/-- Strips all trailing zeros. -/
def normal (d : Decimal) : Decimal :=
  stripZeros (digitCount d.digits) d

/-- The exponent of the first digit. -/
def leadingExponent (d : Decimal) : Int :=
  d.exponent + digitCount d.digits - 1

end Decimal

namespace Dyadic

/-- The sign of `c · 10 ^ e - x · 2 ^ q`, by clearing denominators. -/
def compareDecimal (c : Nat) (e : Int) (x : Nat) (q : Int) : Ordering :=
  compare (c * tenTo e.toNat * twoTo (-q).toNat) (x * twoTo q.toNat * tenTo (-e).toNat)

/-- Whether `c · 10 ^ e` reads back as `m · 2 ^ q`.  The interval that rounds to
a number reaches half way to its neighbours, contains its ends exactly when the
mantissa is even, and is shorter below a power of two, where the spacing of the
numbers halves. -/
def readsBack (m : Nat) (q : Int) (c : Nat) (e : Int) : Bool :=
  let low := if m = twoTo 52 ∧ minExponent < q then 4 * m - 1 else 4 * m - 2
  let high := 4 * m + 2
  let fromBelow := compareDecimal c e low (q - 2)
  let fromAbove := compareDecimal c e high (q - 2)
  if m % 2 = 0 then fromBelow != .lt && fromAbove != .gt
  else fromBelow == .gt && fromAbove == .lt

/-- The exponent of the first decimal digit of `m · 2 ^ q`.  Scaled by `tenTo 340`
every binary64 number other than zero is at least one, and cutting off the
fraction of such a number does not change its digit count. -/
def leadingExponent (m : Nat) (q : Int) : Int :=
  (Decimal.digitCount (m * twoTo q.toNat * tenTo 340 / twoTo (-q).toNat) : Int) - 341

/-- The neighbour of `m · 2 ^ q` on the grid of multiples of `10 ^ e` that reads
back, and the nearer one, on a tie the upper one, if both do. -/
def onGrid? (m : Nat) (q e : Int) : Option Nat :=
  let below := m * twoTo q.toNat * tenTo (-e).toNat / (twoTo (-q).toNat * tenTo e.toNat)
  let belowReads := readsBack m q below e
  let aboveReads := readsBack m q (below + 1) e
  if belowReads && aboveReads then
    if compareDecimal (2 * below + 1) e (2 * m) q == .gt then some below else some (below + 1)
  else if belowReads then some below
  else if aboveReads then some (below + 1)
  else none

/-- Searches the grids of `digits`, `digits + 1`, … digits.  Seventeen digits
always suffice, so the last grid needs no test. -/
def shortestFrom (m : Nat) (q leading : Int) : (more digits : Nat) → Decimal
  | 0, digits =>
    let e := leading - digits + 1
    ⟨m * twoTo q.toNat * tenTo (-e).toNat / (twoTo (-q).toNat * tenTo e.toNat), e⟩
  | more + 1, digits =>
    let e := leading - digits + 1
    match onGrid? m q e with
    | some c => ⟨c, e⟩
    | none => shortestFrom m q leading more (digits + 1)

/-- The shortest decimal of the magnitude of a finite number, without trailing
zeros. -/
def shortest (d : Dyadic) : Decimal :=
  if d.mantissa = 0 then ⟨0, 0⟩
  else
    (shortestFrom d.mantissa d.exponent (leadingExponent d.mantissa d.exponent) 17 1).normal

end Dyadic

end RowFormula.Number
