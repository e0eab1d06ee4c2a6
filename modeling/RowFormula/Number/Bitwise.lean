/-
# Bitwise operations

Whole numbers are combined bit by bit in two's complement.  Only numbers of a
magnitude at which every whole number is representable take part.
-/

import RowFormula.Number.Dyadic

namespace RowFormula.Number

/-- The operations on two numbers. -/
inductive BitOperation where
  | and
  | or
  | xor
  deriving DecidableEq, Repr

/-- The greatest magnitude up to which all whole numbers are representable. -/
def maxExactWhole : Float := 9007199254740992.0

/-- The bits of a whole number, if they are exact. -/
def bits? (x : Float) : Option Int64 :=
  if isWhole x && x.abs <= maxExactWhole then some (Int64.ofInt (toInt64 x)) else none

/-- The number with the bits given. -/
def ofBits64 (b : Int64) : Float :=
  ofInt b.toInt

/-- Combines two words. -/
def BitOperation.apply (op : BitOperation) (a b : Int64) : Int64 :=
  match op with
  | .and => a &&& b
  | .or => a ||| b
  | .xor => a ^^^ b

end RowFormula.Number
