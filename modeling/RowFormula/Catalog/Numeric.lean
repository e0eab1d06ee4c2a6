/-
# Functions of numbers

Arithmetic under names, roots and logarithms, and trigonometry.
-/

import RowFormula.Function
import RowFormula.Value.Operation

namespace RowFormula.Catalog

/-- A function of one number whose result need not be whole. -/
def realFunction (category : Category) (name description : String) (f : Float → Float) :
    Function where
  name := name
  category := category
  description := description
  signature := .all [.numeric]
  result := .fixed .double
  body := fun _ args => pure (.double (f (numberAt args 0)))

/-- A function of one number that takes whole numbers to whole numbers. -/
def wholeFunction (name description : String) (f : Float → Float) : Function where
  name := name
  category := .mathematical
  description := description
  signature := .all [.numeric]
  result := .promoted
  body := fun call args => pure (.number call.resultKind (f (numberAt args 0)))

/-- An operator of arithmetic under a name. -/
def operatorFunction (name description : String) (op : ArithmeticOp) : Function where
  name := name
  category := .arithmetic
  description := description
  signature := .all [.numeric, .numeric]
  result := .promoted
  body := fun call args =>
    pure (.number call.resultKind (op.onNumbers (numberAt args 0) (numberAt args 1)))

/-- Powers and remainders under names. -/
def arithmetic : List Function :=
  [operatorFunction "pow" "Raises the first argument to the power of the second" .pow,
    operatorFunction "mod" "Remainder of dividing the first argument by the second" .mod]

/-- Roots, exponentials, logarithms, signs and absolute values. -/
def mathematical : List Function :=
  [realFunction .mathematical "sqrt" "Square root" Float.sqrt,
    realFunction .mathematical "exp" "e raised to the argument" Float.exp,
    realFunction .mathematical "ln" "Natural logarithm" Float.log,
    realFunction .mathematical "log" "Logarithm to base 10" Float.log10,
    realFunction .mathematical "ld" "Logarithm to base 2" Float.log2,
    wholeFunction "sgn" "Sign of the argument: -1, 0 or 1" Number.sign,
    wholeFunction "abs" "Absolute value" Float.abs]

/-- The angle of a point. -/
def angle : Function where
  name := "atan2"
  category := .trigonometric
  description := "Angle of the point (x, y), called as atan2(y, x)"
  signature := .all [.numeric, .numeric]
  result := .fixed .double
  body := fun _ args => pure (.double (Float.atan2 (numberAt args 0) (numberAt args 1)))

/-- Functions of angles and their inverses. -/
def trigonometric : List Function :=
  [realFunction .trigonometric "sin" "Sine of an angle in radians" Float.sin,
    realFunction .trigonometric "cos" "Cosine of an angle in radians" Float.cos,
    realFunction .trigonometric "tan" "Tangent of an angle in radians" Float.tan,
    realFunction .trigonometric "cot" "Cotangent of an angle in radians"
      fun x => 1.0 / Float.tan x,
    realFunction .trigonometric "sec" "Secant of an angle in radians"
      fun x => 1.0 / Float.cos x,
    realFunction .trigonometric "cosec" "Cosecant of an angle in radians"
      fun x => 1.0 / Float.sin x,
    realFunction .trigonometric "asin" "Arc sine" Float.asin,
    realFunction .trigonometric "acos" "Arc cosine" Float.acos,
    realFunction .trigonometric "atan" "Arc tangent" Float.atan,
    realFunction .trigonometric "sinh" "Hyperbolic sine" Float.sinh,
    realFunction .trigonometric "cosh" "Hyperbolic cosine" Float.cosh,
    realFunction .trigonometric "tanh" "Hyperbolic tangent" Float.tanh,
    realFunction .trigonometric "asinh" "Inverse hyperbolic sine" Number.arsinh,
    realFunction .trigonometric "acosh" "Inverse hyperbolic cosine" Number.arcosh,
    realFunction .trigonometric "atanh" "Inverse hyperbolic tangent" Float.atanh,
    angle]

end RowFormula.Catalog
