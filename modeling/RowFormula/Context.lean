/-
# Contexts

A context is everything that a formula is resolved and evaluated against.  A context
that lacks something, such as a row, simply finds nothing there.
-/

import RowFormula.Function.Registry
import RowFormula.Row
import RowFormula.Tree.Parse

namespace RowFormula

/-- The limits on formulas. -/
structure Options where
  /-- How deep parentheses may nest, and how high a syntax tree may be. -/
  maxParseDepth : Nat := Tree.defaultMaxDepth
  /-- How deep the evaluation of a tree may go. -/
  maxDepth : Nat := 1000
  /-- How deep formulas that are evaluated by formulas may nest. -/
  maxNesting : Nat := 32
  deriving DecidableEq, Repr, Inhabited

/-- Values by the names of constants. -/
abbrev Constants : Type := Table String Value

/-- Texts by the names of macros. -/
abbrev Macros : Type := Table String String

/-- The parameters of a running process: texts by operator and parameter. -/
abbrev Parameters : Type := Table (String × String) String

/-- What formulas are resolved and evaluated against. -/
structure Context where
  functions : Registry := {}
  constants : Constants := {}
  row : Row := {}
  macros : Macros := {}
  /-- The parameters of the process, if there is one. -/
  process : Option Parameters := none
  options : Options := {}
  /-- How many formulas deep the context is. -/
  nesting : Nat := 0
  /-- The time of the evaluation. -/
  now : Calendar.Instant := ⟨0, 0⟩

namespace Context

/-- The context for a formula that is evaluated by one in this context. -/
def nested (ctx : Context) : Context :=
  { ctx with nesting := ctx.nesting + 1 }

/-- How many more levels of formulas this context allows. -/
def levels (ctx : Context) : Nat :=
  ctx.options.maxNesting - ctx.nesting

def parameter? (ctx : Context) (operator parameter : String) : Option String := do
  (← ctx.process).get? (operator, parameter)

/-- Draws a random number, from the process if there is one. -/
def random (ctx : Context) (seed : Option Int) (draws : Random.Draws) :
    Float × Random.Draws :=
  match ctx.process with
  | some _ => draws.draw seed
  | none => draws.drawAmbient seed

/-- All constants, sorted by name. -/
def constantNames (ctx : Context) : List String :=
  ctx.constants.keys.mergeSort fun a b => a ≤ b

/-- The request for the kind of a call in this context. -/
def kindRequest (ctx : Context) (formulaKind : String → Except KindFault Kind)
    (args : List ArgInfo) : KindRequest where
  args := args
  attributeKind? := ctx.row.kind?
  attribute? := ctx.row.get?
  macroText? := ctx.macros.get?
  parameter? := ctx.parameter?
  nesting := ctx.nesting
  noArgument := KindFault.noArgument
  formulaKind := formulaKind

/-- The call of a function in this context. -/
def call (ctx : Context) (evaluateFormula : String → Evaluation EvaluationFault Value)
    (function : Function) (resultKind : Kind) : Call where
  name := function.name
  resultKind := resultKind
  nesting := ctx.nesting
  now := ctx.now
  attribute? := ctx.row.get?
  macroText? := ctx.macros.get?
  parameter? := ctx.parameter?
  random := ctx.random
  noArgument := fun position count => .rejected function.name (.noArgument position count)
  evaluateFormula := evaluateFormula

end Context

end RowFormula
