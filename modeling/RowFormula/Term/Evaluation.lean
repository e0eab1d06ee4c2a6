/-
# Evaluating terms

A term is evaluated against the row of a context.  Operands and arguments are evaluated
from left to right and always all of them; only a conditional leaves out the branch
that it does not select.  Every node counts one level of depth, and a node beyond the
limit fails.
-/

import RowFormula.Context
import RowFormula.Term
import RowFormula.Value.Compare
import RowFormula.Value.Operation

namespace RowFormula.Term

/-- Evaluation of a term: a failure knows its place, and later its formula. -/
abbrev Run (α : Type) : Type := Evaluation EvaluationError α

/-- Converts a value to the kind of the node at some place. -/
def conform (k : Kind) (span : Span) (v : Value) : Run Value :=
  Evaluation.ofOption (.located (.kindMismatch k v.kind) span) (v.coerce? k)

section Evaluating

variable (evaluateFormula : String → Evaluation EvaluationFault Value) (ctx : Context)
variable (maxDepth : Nat)

/-- The value of an attribute.  Its kind may differ from the one that was declared when
the formula was resolved. -/
def attributeValue (k : Kind) (span : Span) (name : String) : Run Value := do
  let v ← Evaluation.ofOption (.located (.unknownAttribute name) span) (ctx.row.get? name)
  conform k span v

def macroValue (span : Span) (name : String) : Run Value :=
  Evaluation.ofOption (.located (.unknownMacro name) span)
    ((ctx.macros.get? name).map Value.ofString)

/-- Calls a function. -/
def apply (k : Kind) (span : Span) (f : Function) (args : List Value) : Run Value := do
  let v ← (f.body (ctx.call evaluateFormula f k) args).mapError (.located · span)
  conform k span v

/-- Fails at a node that is too deep. -/
def guardDepth (depth : Nat) (span : Span) : Run Unit :=
  if maxDepth ≤ depth then throw (.located (.depthExceeded (depth + 1) maxDepth) span)
  else pure ()

mutual

/-- Evaluates a term that is below `depth` others. -/
def evaluate : (depth : Nat) → Term → Run Value
  | depth, constant _ span value => do
    guardDepth maxDepth depth span
    pure value
  | depth, attributeRef k span name => do
    guardDepth maxDepth depth span
    attributeValue ctx k span name
  | depth, macroRef span name => do
    guardDepth maxDepth depth span
    macroValue ctx span name
  | depth, unary _ span op operand => do
    guardDepth maxDepth depth span
    let x ← evaluate (depth + 1) operand
    pure (Value.unary op x)
  | depth, arithmetic k span op left right => do
    guardDepth maxDepth depth span
    let x ← evaluate (depth + 1) left
    let y ← evaluate (depth + 1) right
    pure (Value.arithmetic op k x y)
  | depth, comparison span op left right => do
    guardDepth maxDepth depth span
    let x ← evaluate (depth + 1) left
    let y ← evaluate (depth + 1) right
    pure (Value.ofBool (Value.compare op x y))
  | depth, logical span op left right => do
    guardDepth maxDepth depth span
    let x ← evaluate (depth + 1) left
    let y ← evaluate (depth + 1) right
    pure (Value.logical op x y)
  | depth, conditional k span condition whenTrue whenFalse => do
    guardDepth maxDepth depth span
    let c ← evaluate (depth + 1) condition
    match c.truth? with
    | some true => do
      let v ← evaluate (depth + 1) whenTrue
      conform k span v
    | some false => do
      let v ← evaluate (depth + 1) whenFalse
      conform k span v
    | none => pure (Value.missing k)
  | depth, call k span f args => do
    guardDepth maxDepth depth span
    let values ← evaluateAll (depth + 1) args
    apply evaluateFormula ctx k span f values
  termination_by structural _ t => t

/-- Evaluates terms from first to last. -/
def evaluateAll : (depth : Nat) → List Term → Run (List Value)
  | _, [] => pure []
  | depth, t :: ts => do
    let v ← evaluate depth t
    let vs ← evaluateAll depth ts
    pure (v :: vs)
  termination_by structural _ ts => ts

end

end Evaluating

end RowFormula.Term
