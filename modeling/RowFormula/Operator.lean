/-
# Operators

The operators of formulas in their four families, with the texts by which messages
and trees mention them.
-/

namespace RowFormula

/-- Operators of arithmetic. -/
inductive ArithmeticOp where
  | add
  | sub
  | mul
  | div
  | mod
  | pow
  deriving DecidableEq, Repr, Inhabited

/-- Operators between truth values. -/
inductive LogicalOp where
  | and
  | or
  deriving DecidableEq, Repr, Inhabited

/-- Comparisons. -/
inductive ComparisonOp where
  | eq
  | ne
  | lt
  | le
  | gt
  | ge
  deriving DecidableEq, Repr, Inhabited

/-- Operators in front of one operand. -/
inductive UnaryOp where
  | neg
  | pos
  | not
  deriving DecidableEq, Repr, Inhabited

def ArithmeticOp.text : ArithmeticOp → String
  | add => "+"
  | sub => "-"
  | mul => "*"
  | div => "/"
  | mod => "%"
  | pow => "^"

def LogicalOp.text : LogicalOp → String
  | and => "&&"
  | or => "||"

def ComparisonOp.text : ComparisonOp → String
  | eq => "=="
  | ne => "!="
  | lt => "<"
  | le => "<="
  | gt => ">"
  | ge => ">="

/-- Whether a comparison only asks for equality, which is defined between all
kinds. -/
def ComparisonOp.isEquality : ComparisonOp → Bool
  | eq | ne => true
  | _ => false

def UnaryOp.text : UnaryOp → String
  | neg => "-"
  | pos => "+"
  | not => "!"

/-- The operators between two operands. -/
inductive InfixOp where
  | arithmetic (op : ArithmeticOp)
  | comparison (op : ComparisonOp)
  | logical (op : LogicalOp)
  deriving DecidableEq, Repr

namespace InfixOp

/-- Raising to a power, the one operator that binds tighter than those in front of
an operand. -/
def power : InfixOp := .arithmetic .pow

def text : InfixOp → String
  | arithmetic op => op.text
  | comparison op => op.text
  | logical op => op.text

/-- All infix operators, in the order in which they are tried: an operator comes
before those that are the beginning of its text. -/
def all : List InfixOp :=
  [.logical .or, .logical .and, .comparison .eq, .comparison .ne, .comparison .le,
    .comparison .lt, .comparison .ge, .comparison .gt, .arithmetic .add, .arithmetic .sub,
    .arithmetic .mul, .arithmetic .div, .arithmetic .mod, .arithmetic .pow]

end InfixOp

end RowFormula
