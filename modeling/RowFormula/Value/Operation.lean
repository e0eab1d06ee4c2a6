/-
# Operations on values

Arithmetic, concatenation and logic, each defined for all values.  A missing
operand makes the result missing, with one exception: in a concatenation it merely
contributes nothing.
-/

import RowFormula.Number.Elementary
import RowFormula.Number.Remainder
import RowFormula.Operator
import RowFormula.Value

namespace RowFormula

/-- An operation of arithmetic on numbers.  It is defined everywhere: division by
zero gives an infinity or the missing number. -/
def ArithmeticOp.onNumbers (op : ArithmeticOp) (x y : Float) : Float :=
  match op with
  | .add => x + y
  | .sub => x - y
  | .mul => x * y
  | .div => x / y
  | .mod => Number.remainder x y
  | .pow => Number.power x y

namespace Value

/-- Joins the texts of two values.  Only two missing values give a missing text. -/
def concat (a b : Value) : Value :=
  match a.text?, b.text? with
  | none, none => missing .string
  | s, t => ofString (s.getD "" ++ t.getD "")

/-- An operation of arithmetic whose result has kind `k`.  A text as result means
concatenation. -/
def arithmetic (op : ArithmeticOp) (k : Kind) (a b : Value) : Value :=
  if k = .string then concat a b
  else number k (op.onNumbers a.toNumber b.toNumber)

/-- The truth of a value: for numbers, whether they are other than zero.  Texts and
dates have none. -/
def truth? : Value → Option Bool
  | boolean b => b
  | integer x => if x.isNaN then none else some (x != 0.0)
  | double x => if x.isNaN then none else some (x != 0.0)
  | _ => none

/-- Conjunction, missing if either side is. -/
def logicalAnd (a b : Value) : Value :=
  match a.truth?, b.truth? with
  | some p, some q => ofBool (p && q)
  | _, _ => missing .boolean

/-- Disjunction, missing if either side is. -/
def logicalOr (a b : Value) : Value :=
  match a.truth?, b.truth? with
  | some p, some q => ofBool (p || q)
  | _, _ => missing .boolean

/-- Negation. -/
def logicalNot (a : Value) : Value :=
  match a.truth? with
  | some p => ofBool (!p)
  | none => missing .boolean

def logical (op : LogicalOp) (a b : Value) : Value :=
  match op with
  | .and => logicalAnd a b
  | .or => logicalOr a b

def unary (op : UnaryOp) (a : Value) : Value :=
  match op with
  | .neg => number a.kind (-a.toNumber)
  | .pos => a
  | .not => logicalNot a

end Value

end RowFormula
