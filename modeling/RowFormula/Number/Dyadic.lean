/-
# Binary64 numbers as exact dyadic fractions

A finite binary64 number is `± m · 2 ^ q` for a natural `m` below `2 ^ 53`.  All
exact work on numbers (rounding to whole numbers, remainders, decimal digits)
happens on `m` and `q` in unbounded arithmetic; `Dyadic.toFloat` packs a result
that fits.
-/

import RowFormula.Number.Powers

namespace RowFormula.Number

/-- The exact value `± mantissa · 2 ^ exponent`.  The sign is kept beside the
mantissa because zero has one. -/
structure Dyadic where
  negative : Bool
  mantissa : Nat
  exponent : Int
  deriving DecidableEq, Repr

namespace Dyadic

/-- The least exponent of a binary64 number, that of the subnormal ones. -/
def minExponent : Int := -1074

/-- Reads sign, exponent and mantissa off the bits of a finite number. -/
def ofFloat (x : Float) : Dyadic :=
  let bits : Nat := x.toBits.toNat
  let fraction : Nat := bits % twoTo 52
  let biased : Nat := bits / twoTo 52 % twoTo 11
  let negative := bits / twoTo 63 == 1
  if biased == 0 then ⟨negative, fraction, minExponent⟩
  else ⟨negative, twoTo 52 + fraction, (biased : Int) - 1075⟩

/-- Number of binary digits. -/
def bitLength (n : Nat) : Nat :=
  if n = 0 then 0 else Nat.log2 n + 1

/-- Packs a dyadic fraction whose mantissa is below `twoTo 53`.  Exponents above
the range give an infinity, and digits below the least exponent are cut off. -/
def toFloat (d : Dyadic) : Float :=
  let sign := if d.negative then twoTo 63 else 0
  let magnitude :=
    if d.mantissa = 0 then 0
    else
      let shift := 53 - bitLength d.mantissa
      let normal := d.mantissa * twoTo shift
      let exponent := d.exponent - shift
      if exponent < minExponent then normal / twoTo (minExponent - exponent).toNat
      else if exponent > 971 then 2047 * twoTo 52
      else (exponent + 1075).toNat * twoTo 52 + (normal - twoTo 52)
  Float.ofBits (UInt64.ofNat (sign + magnitude))

/-- The whole number with the sign and magnitude given. -/
def ofNat (negative : Bool) (n : Nat) : Dyadic := ⟨negative, n, 0⟩

/-- The whole part of the magnitude, the numerator of the fraction left over,
and its denominator. -/
def split (d : Dyadic) : Nat × Nat × Nat :=
  if 0 ≤ d.exponent then (d.mantissa * twoTo d.exponent.toNat, 0, 1)
  else
    let denominator := twoTo (-d.exponent).toNat
    (d.mantissa / denominator, d.mantissa % denominator, denominator)

/-- The exact value, rounded toward zero. -/
def truncated (d : Dyadic) : Int :=
  let n : Int := d.split.1
  if d.negative then -n else n

end Dyadic

/-- The one number that stands for a missing value. -/
def nan : Float := 0.0 / 0.0

/-- Positive infinity. -/
def infinity : Float := 1.0 / 0.0

/-- Negative infinity. -/
def negInfinity : Float := -infinity

/-- Whether the sign bit is set, also on zero. -/
def signBit (x : Float) : Bool :=
  x.toBits.toNat / twoTo 63 == 1

/-- Finite and without a fraction. -/
def isWhole (x : Float) : Bool :=
  x.isFinite && (Dyadic.ofFloat x).split.2.1 == 0

/-- Rounds the magnitude of a finite number by `up`, which sees the sign, the
whole part, and the fraction left over.  Infinities and the missing number stay,
and the sign stays even when the result is zero. -/
def roundBy (up : Bool → Nat → Nat → Nat → Bool) (x : Float) : Float :=
  if x.isFinite then
    let d := Dyadic.ofFloat x
    if 0 ≤ d.exponent then x
    else
      let (whole, rest, denominator) := d.split
      let n := if up d.negative whole rest denominator then whole + 1 else whole
      (Dyadic.ofNat d.negative n).toFloat
  else x

/-- Toward zero. -/
def trunc : Float → Float :=
  roundBy fun _ _ _ _ => false

/-- Down. -/
def floor : Float → Float :=
  roundBy fun negative _ rest _ => negative && rest != 0

/-- Up. -/
def ceil : Float → Float :=
  roundBy fun negative _ rest _ => !negative && rest != 0

/-- To the nearest whole number, a half away from zero. -/
def round : Float → Float :=
  roundBy fun _ _ rest denominator => denominator ≤ 2 * rest

/-- To the nearest whole number, a half to the even neighbour. -/
def roundEven : Float → Float :=
  roundBy fun _ whole rest denominator =>
    denominator < 2 * rest || (denominator == 2 * rest && whole % 2 == 1)

/-- The least and greatest whole numbers of 64 bits. -/
def minInt64 : Int := -9223372036854775808

def maxInt64 : Int := 9223372036854775807

/-- Brings a whole number into the range of 64 bits. -/
def clampInt64 (n : Int) : Int :=
  max minInt64 (min maxInt64 n)

/-- The whole part as a number of 64 bits.  What lies outside the range goes to
its nearer end, and the missing number goes to zero. -/
def toInt64 (x : Float) : Int :=
  if x.isNaN then 0
  else if x.isFinite then clampInt64 (Dyadic.ofFloat x).truncated
  else if signBit x then minInt64 else maxInt64

/-- One with the sign of a number that is not missing. -/
def signum (x : Float) : Float :=
  if x.isNaN then x else if signBit x then -1.0 else 1.0

/-- The nearest number to a whole number of 64 bits. -/
def ofInt (n : Int) : Float := Float.ofInt n

end RowFormula.Number
