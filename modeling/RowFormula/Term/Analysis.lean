/-
# Resolving trees

`Term.ofTree` gives every node of a tree its kind and every call its function.
Operators on constants are replaced by their value on the way, and a conditional with
a constant condition by the branch that it selects; the other branch is not even
looked at.
-/

import RowFormula.Context
import RowFormula.Term
import RowFormula.Value.Compare
import RowFormula.Value.Operation

namespace RowFormula.Term

/-- The name of the conditional, which is no function. -/
def conditionalName : String := "if"

/-- The value of an operator whose operands are constants. -/
def folded? : Term → Option Value
  | unary _ _ op x => do pure (Value.unary op (← x.constant?))
  | arithmetic k _ op x y => do
    pure (Value.arithmetic op k (← x.constant?) (← y.constant?))
  | comparison _ op x y => do
    pure (Value.ofBool (Value.compare op (← x.constant?) (← y.constant?)))
  | logical _ op x y => do pure (Value.logical op (← x.constant?) (← y.constant?))
  | _ => none

/-- Replaces an operator whose operands are constants by its value.  The constant keeps
the kind of the operator. -/
def fold (t : Term) : Term :=
  match t.folded? with
  | some value => constant t.kind t.span value
  | none => t

/-- The kind of an operator in front of an operand. -/
def unaryKind? (op : UnaryOp) (operand : Kind) : Option Kind :=
  match op with
  | .neg | .pos => if operand.isNumeric then some operand else none
  | .not => if operand.isTruthy then some .boolean else none

/-- The kind of an operation of arithmetic.  A text on either side makes an addition a
concatenation, and a quotient is never known to be whole. -/
def arithmeticKind? (op : ArithmeticOp) (left right : Kind) : Option Kind :=
  if op = .add ∧ (left = .string ∨ right = .string) then some .string
  else if left.isNumeric && right.isNumeric then
    some (if op = .div then .double else left.arithmeticResult right)
  else none

/-- Whether values of two kinds can be compared. -/
def comparable (op : ComparisonOp) (left right : Kind) : Bool :=
  op.isEquality || (left.isNumeric && right.isNumeric) ||
    (left == .string && right == .string)

/-- What resolving with one source can result in. -/
abbrev Analysis (α : Type) : Type := Except TypeError α

/-- The first argument of a kind that its position does not accept, with that
position. -/
def misplaced? (signature : Signature) : (position : Nat) → List Term → Option (Nat × Term)
  | _, [] => none
  | position, t :: ts =>
    if (signature.acceptedAt position).accepts t.kind then
      misplaced? signature (position + 1) ts
    else some (position, t)

section Resolving

variable (formulaKind : String → Except KindFault Kind) (ctx : Context) (source : String)

/-- Fails because of a fault at some place. -/
def fail {α : Type} (fault : TypeFault) (span : Span) : Analysis α :=
  throw (.mk fault source span)

def ofAttribute (unknown : TypeFault) (name : String) (span : Span) : Analysis Term :=
  match ctx.row.kind? name with
  | some k => pure (attributeRef k span name)
  | none => fail source unknown span

/-- A bare name is a constant, or else an attribute. -/
def ofIdent (name : String) (span : Span) : Analysis Term :=
  match ctx.constants.get? name with
  | some value => pure (ofValue span value)
  | none => ofAttribute ctx source (.unknownIdentifier name) name span

/-- An operator in front of a resolved operand. -/
def ofUnary (op : UnaryOp) (span : Span) (operand : Term) : Analysis Term :=
  match unaryKind? op operand.kind with
  | some k => pure (unary k span op operand)
  | none => fail source (.unaryMismatch op operand.kind) span

def ofArithmetic (op : ArithmeticOp) (span : Span) (left right : Term) : Analysis Term :=
  match arithmeticKind? op left.kind right.kind with
  | some k => pure (arithmetic k span op left right)
  | none => fail source (.operatorMismatch (.arithmetic op) left.kind right.kind) span

def ofComparison (op : ComparisonOp) (span : Span) (left right : Term) : Analysis Term :=
  if comparable op left.kind right.kind then pure (comparison span op left right)
  else fail source (.operatorMismatch (.comparison op) left.kind right.kind) span

def ofLogical (op : LogicalOp) (span : Span) (left right : Term) : Analysis Term :=
  if left.kind.isTruthy && right.kind.isTruthy then pure (logical span op left right)
  else fail source (.operatorMismatch (.logical op) left.kind right.kind) span

/-- A conditional whose branches are resolved.  A condition that is constantly missing
selects neither of them. -/
def ofConditional (span : Span) (condition whenTrue whenFalse : Term) : Term :=
  let k := whenTrue.kind.unify whenFalse.kind
  match condition.constant? with
  | some _ => constant k span (Value.missing k)
  | none => conditional k span condition whenTrue whenFalse

/-- The branch that a condition selects before any row is seen. -/
def selected? (condition : Term) : Option Bool := do
  (← condition.constant?).truth?

/-- The function of a name, if it accepts so many arguments. -/
def functionFor (name : String) (count : Nat) (span : Span) : Analysis Function :=
  match ctx.functions.get? name with
  | none => fail source (.unknownFunction name) span
  | some f =>
    if f.signature.arity.accepts count then pure f
    else fail source (.arityMismatch name f.signature.arity count) span

/-- The kind of a call whose arguments are resolved. -/
def callKind (name : String) (span : Span) (f : Function) (args : List Term) :
    Analysis Kind :=
  match misplaced? f.signature 0 args with
  | some (position, arg) =>
    let expected := f.signature.acceptedAt position
    fail source (.argumentMismatch name position expected arg.kind) arg.span
  | none =>
    let infos := args.map fun arg => ArgInfo.mk arg.kind arg.constant?
    match f.result.resolve (ctx.kindRequest formulaKind infos) with
    | .ok k => pure k
    | .error reason => fail source (.undetermined name reason) span

/-- A call whose arguments are resolved. -/
def ofCall (name : String) (span : Span) (f : Function) (args : List Term) :
    Analysis Term := do
  let k ← callKind formulaKind ctx source name span f args
  pure (call k span f args)

mutual

/-- Resolves a tree. -/
def ofTree : Tree → Analysis Term
  | .integer x span => pure (ofValue span (.integer x))
  | .float x span => pure (ofValue span (.double x))
  | .text s span => pure (ofValue span (.ofString s))
  | .ident name span => ofIdent ctx source name span
  | .attributeRef name span => ofAttribute ctx source (.unknownAttribute name) name span
  | .macroRef name span => pure (macroRef span name)
  | .unary op span operand => do
    let x ← ofTree operand
    let node ← ofUnary source op span x
    pure node.fold
  | .arithmetic op span left right => do
    let x ← ofTree left
    let y ← ofTree right
    let node ← ofArithmetic source op span x y
    pure node.fold
  | .comparison op span left right => do
    let x ← ofTree left
    let y ← ofTree right
    let node ← ofComparison source op span x y
    pure node.fold
  | .logical op span left right => do
    let x ← ofTree left
    let y ← ofTree right
    let node ← ofLogical source op span x y
    pure node.fold
  | .call name span args =>
    if name = conditionalName then
      match args with
      | [condition, whenTrue, whenFalse] => do
        let c ← ofTree condition
        if !c.kind.isTruthy then fail source (.conditionMismatch c.kind) c.span
        else
          match selected? c with
          | some true => ofTree whenTrue
          | some false => ofTree whenFalse
          | none => do
            let t ← ofTree whenTrue
            let e ← ofTree whenFalse
            pure (ofConditional span c t e)
      | args => fail source (.arityMismatch name (.exact 3) args.length) span
    else do
      let f ← functionFor ctx source name args.length span
      ofCall formulaKind ctx source name span f (← ofTrees args)
  termination_by structural t => t

/-- Resolves trees from first to last. -/
def ofTrees : List Tree → Analysis (List Term)
  | [] => pure []
  | t :: ts => do
    let x ← ofTree t
    let xs ← ofTrees ts
    pure (x :: xs)
  termination_by structural ts => ts

end

end Resolving

end RowFormula.Term
