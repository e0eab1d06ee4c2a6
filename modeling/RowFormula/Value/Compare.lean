/-
# Comparing values

Equality is defined between values of all kinds: values of different kinds are
compared through a common form.  Order is defined between two numbers and between
two texts.  A missing value is equal to exactly the missing values of its category,
and stands in no order to anything.
-/

import RowFormula.Operator
import RowFormula.Text.Units
import RowFormula.Value

namespace RowFormula.Value

/-- Whether a date, counted in milliseconds, is the number given. -/
def isMillis (d : Calendar.Instant) (x : Float) : Bool :=
  Number.ofInt d.millis == x

/-- Equality of two values that are not missing. -/
def equalsPresent (a b : Value) : Bool :=
  match a, b with
  | string s, string t => s == t
  | boolean p, boolean q => p == q
  | date d, date e => d == e
  | string (some s), boolean (some p) => s == boolText p
  | boolean (some p), string (some s) => s == boolText p
  | string (some s), date (some d) => s == d.text
  | date (some d), string (some s) => s == d.text
  | a, b =>
    match a.number?, b.number? with
    | some x, some y => x == y
    | some x, none => meetsNumber b x
    | none, some y => meetsNumber a y
    | none, none => false
where
  /-- Whether a value of a kind that is not numeric equals a number. -/
  meetsNumber : Value → Float → Bool
    | string (some s), x => Number.minimalText? x == some s
    | boolean (some p), x => p == (x != 0.0)
    | date (some d), x => isMillis d x
    | _, _ => false

/-- Equality as formulas write it. -/
def equals (a b : Value) : Bool :=
  match a.isMissing, b.isMissing with
  | true, true => a.kind.sameCategory b.kind
  | false, false => equalsPresent a b
  | _, _ => false

/-- The order of two numbers of which none is missing. -/
def orderNumbers (x y : Float) : Ordering :=
  if x < y then .lt else if x == y then .eq else .gt

/-- The order of two values, if they have one. -/
def order? (a b : Value) : Option Ordering :=
  if a.isMissing || b.isMissing then none
  else
    match a, b with
    | string (some s), string (some t) => some (Text.order s t)
    | a, b =>
      match a.number?, b.number? with
      | some x, some y => some (orderNumbers x y)
      | _, _ => none

/-- Compares two values.  Where there is no order, no comparison by order holds. -/
def compare (op : ComparisonOp) (a b : Value) : Bool :=
  match op with
  | .eq => equals a b
  | .ne => !equals a b
  | .lt => order? a b == some .lt
  | .le => order? a b == some .lt || order? a b == some .eq
  | .gt => order? a b == some .gt
  | .ge => order? a b == some .gt || order? a b == some .eq

end RowFormula.Value
