/-
# Operator chains

The grammar reads a formula as a flat chain of operands and infix operators, in
which every operand may carry operators in front.  Which operator binds tighter is
settled afterwards, in `RowFormula.Grammar.Precedence`.
-/

import RowFormula.Grammar.Construct
import RowFormula.Span

namespace RowFormula.Grammar

/-- Operands without parts, with the text between their delimiters. -/
inductive Leaf where
  | attributeRef (name : List Char)
  | macroRef (name : List Char)
  | float (digits : List Char)
  | integer (digits : List Char)
  | string (content : List Char)
  | ident (name : List Char)
  deriving DecidableEq, Repr

/-- An operator in front of an operand, and where it stands. -/
structure Sign where
  op : UnaryOp
  span : Span
  deriving DecidableEq, Repr

mutual

/-- Operands with infix operators between them. -/
inductive Chain where
  | single (operand : Operand)
  | link (operand : Operand) (op : InfixOp) (opSpan : Span) (rest : Chain)

/-- An operand with the operators in front of it. -/
inductive Operand where
  | mk (signs : List Sign) (primary : Primary)

/-- An operand without operators in front. -/
inductive Primary where
  /-- A chain in parentheses. -/
  | group (inner : Chain) (span : Span)
  | call (name : List Char) (args : List Chain) (span : Span)
  | leaf (leaf : Leaf) (span : Span)

end

end RowFormula.Grammar
