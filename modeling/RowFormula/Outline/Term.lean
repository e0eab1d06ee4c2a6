/-
# Outlines of resolved formulas
-/

import RowFormula.Outline.Tree
import RowFormula.Term

namespace RowFormula

/-- The word for a kind in outlines. -/
def Kind.word : Kind → String
  | integer => "Integer"
  | double => "Double"
  | boolean => "Boolean"
  | string => "String"
  | date => "Date"

/-- The word for a section of the catalog in outlines. -/
def Category.word : Category → String
  | arithmetic => "Arithmetic"
  | comparison => "Comparison"
  | logical => "Logical"
  | bitwise => "Bitwise"
  | conversion => "Conversion"
  | date => "Date"
  | mathematical => "Mathematical"
  | rounding => "Rounding"
  | statistical => "Statistical"
  | stringInformation => "StringInformation"
  | stringTransformation => "StringTransformation"
  | trigonometric => "Trigonometric"
  | process => "Process"
  | indirection => "Indirection"

/-- A result rule on one line. -/
def ResultRule.text : ResultRule → String
  | fixed k => "Fixed(" ++ k.word ++ ")"
  | promoted => "Promoted"
  | byArity one more => "ByArity(" ++ one.word ++ ", " ++ more.word ++ ")"
  | custom _ => "Custom(<fn>)"

namespace Outline

def ofCount (n : Nat) : Outline := atom (Text.decimal n)

def ofArity : Arity → Outline
  | .exact n => single "Exact" (ofCount n)
  | .atLeast n => single "AtLeast" (ofCount n)
  | .range least most => tuple "Range" [ofCount least, ofCount most]

/-- A set of kinds by the names of its members. -/
def ofKindSet (s : KindSet) : Outline :=
  let names := s.toList.map Kind.name
  single "KindSet" (atom (if names.isEmpty then "0x0" else " | ".intercalate names))

def ofSignature (s : Signature) : Outline :=
  record "Signature"
    [("arity", ofArity s.arity), ("params", sequence (s.params.map ofKindSet)),
      ("rest", optional (s.rest.map ofKindSet))]

def ofFunction (f : Function) : Outline :=
  record "FunctionDescriptor"
    [("name", quoted f.name), ("category", atom f.category.word),
      ("signature", ofSignature f.signature), ("result", atom f.result.text)]

/-- A value by its kind and what it holds. -/
def ofValue (v : Value) : Outline :=
  let content :=
    match v with
    | .integer x => ofNumber x
    | .double x => ofNumber x
    | .boolean b => optional (b.map fun b => atom (Value.boolText b))
    | .string s => optional (s.map quoted)
    | .date d => optional (d.map fun d => atom (d.utc.exactText "T" ++ "Z"))
  single v.kind.word content

/-- The outline of a node, given the outline of what it holds. -/
def ofTermNode (k : Kind) (s : Span) (content : Outline) : Outline :=
  record "Expr" [("kind", atom k.word), ("span", ofSpan s), ("inner", content)]

mutual

/-- The outline of a term. -/
def ofTerm : Term → Outline
  | .constant k s v => ofTermNode k s (single "Constant" (ofValue v))
  | .attributeRef k s name => ofTermNode k s (single "Attribute" (quoted name))
  | .macroRef s name => ofTermNode .string s (single "Macro" (quoted name))
  | .unary k s op x =>
    ofTermNode k s (record "Unary" [("op", atom op.word), ("expr", ofTerm x)])
  | .arithmetic k s op l r => ofTermNode k s (ofInfix "Binary" op.word (ofTerm l) (ofTerm r))
  | .comparison s op l r =>
    ofTermNode .boolean s (ofInfix "Comparison" op.word (ofTerm l) (ofTerm r))
  | .logical s op l r =>
    ofTermNode .boolean s (ofInfix "Logical" op.word (ofTerm l) (ofTerm r))
  | .conditional k s c t e =>
    ofTermNode k s
      (record "If" [("cond", ofTerm c), ("then_branch", ofTerm t), ("else_branch", ofTerm e)])
  | .call k s f args =>
    ofTermNode k s
      (record "Call" [("function", ofFunction f), ("args", sequence (ofTerms args))])
  termination_by structural t => t

def ofTerms : List Term → List Outline
  | [] => []
  | t :: ts => ofTerm t :: ofTerms ts
  termination_by structural ts => ts

end

end Outline

end RowFormula
