/-
# Outlines of syntax trees
-/

import RowFormula.Number.Render
import RowFormula.Outline
import RowFormula.Tree

namespace RowFormula

/-- The word for an operator in outlines. -/
def ArithmeticOp.word : ArithmeticOp → String
  | add => "Add"
  | sub => "Sub"
  | mul => "Mul"
  | div => "Div"
  | mod => "Mod"
  | pow => "Pow"

/-- The word for an operator in outlines. -/
def LogicalOp.word : LogicalOp → String
  | and => "And"
  | or => "Or"

/-- The word for a comparison in outlines. -/
def ComparisonOp.word : ComparisonOp → String
  | eq => "Eq"
  | ne => "Neq"
  | lt => "Lt"
  | le => "Le"
  | gt => "Gt"
  | ge => "Ge"

/-- The word for an operator in outlines. -/
def UnaryOp.word : UnaryOp → String
  | neg => "Neg"
  | pos => "Pos"
  | not => "Not"

namespace Outline

def ofNumber (x : Float) : Outline := atom (Number.treeText x)

def ofSpan (s : Span) : Outline :=
  single "Span" (atom (Text.decimal s.start ++ ".." ++ Text.decimal s.stop))

/-- The outline of a node, given the outline of what it holds. -/
def ofNode (content : Outline) (s : Span) : Outline :=
  record "Node" [("expr", content), ("span", ofSpan s)]

/-- The outline of a literal. -/
def ofLiteral (word : String) (value : Outline) : Outline :=
  single "Literal" (single word value)

/-- The outline of an operator between two operands. -/
def ofInfix (family word : String) (left right : Outline) : Outline :=
  record family [("op", atom word), ("left", left), ("right", right)]

mutual

/-- The outline of a tree. -/
def ofTree : Tree → Outline
  | .integer x s => ofNode (ofLiteral "Int" (ofNumber x)) s
  | .float x s => ofNode (ofLiteral "Float" (ofNumber x)) s
  | .text t s => ofNode (ofLiteral "Str" (quoted t)) s
  | .ident name s => ofNode (single "Ident" (quoted name)) s
  | .attributeRef name s => ofNode (single "Attribute" (quoted name)) s
  | .macroRef name s => ofNode (single "Macro" (quoted name)) s
  | .unary op s x => ofNode (record "Unary" [("op", atom op.word), ("expr", ofTree x)]) s
  | .arithmetic op s l r => ofNode (ofInfix "Binary" op.word (ofTree l) (ofTree r)) s
  | .comparison op s l r => ofNode (ofInfix "Comparison" op.word (ofTree l) (ofTree r)) s
  | .logical op s l r => ofNode (ofInfix "Boolean" op.word (ofTree l) (ofTree r)) s
  | .call name s args =>
    ofNode (record "Call" [("name", quoted name), ("args", sequence (ofTrees args))]) s
  termination_by structural t => t

def ofTrees : List Tree → List Outline
  | [] => []
  | t :: ts => ofTree t :: ofTrees ts
  termination_by structural ts => ts

end

end Outline

end RowFormula
