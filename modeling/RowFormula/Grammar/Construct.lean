/-
# Constructs of the grammar

When a text is not a formula, the error says which constructs could have stood at
the place of the fault.  Constructs are listed in the order of `Construct.all`, and
related ones are mentioned under one name.
-/

import RowFormula.Operator
import RowFormula.Text.Phrase

namespace RowFormula.Grammar

/-- The operators in front of an operand, in the order in which they are tried. -/
def unaryOps : List UnaryOp := [.neg, .pos, .not]

/-- What a place in a formula may hold. -/
inductive Construct where
  | endOfInput
  | formula
  | expression
  | group
  | call
  | ident
  | attributeRef
  | attributeName
  | macroRef
  | macroName
  | float
  | integer
  | string
  | stringContent
  | unary (op : UnaryOp)
  | binary (op : InfixOp)
  deriving DecidableEq, Repr

namespace Construct

/-- All constructs in the order in which errors list them. -/
def all : List Construct :=
  [endOfInput, formula, expression, group, call, ident, attributeRef, attributeName, macroRef,
    macroName, float, integer, string, stringContent] ++
    unaryOps.map unary ++ InfixOp.all.map binary

/-- The name under which a message mentions a construct. -/
def concept : Construct → String
  | integer | float | string => "literal"
  | ident | call => "identifier"
  | attributeRef => "attribute"
  | macroRef => "macro"
  | endOfInput => "end of input"
  | binary _ => "operator"
  | _ => "expression"

/-- Puts constructs into their order, each once. -/
def sorted (found : List Construct) : List Construct :=
  all.filter fun c => found.contains c

/-- Adds the names of a list, leaving out those that are there already. -/
def addConcepts (names : List String) (cs : List Construct) : List String :=
  cs.foldl (fun names c => if names.contains c.concept then names else names ++ [c.concept]) names

/-- How a message lists what was expected. -/
def expectation (cs : List Construct) : String :=
  (Text.alternatives? (addConcepts [] cs)).getD "something else"

end Construct

end RowFormula.Grammar
