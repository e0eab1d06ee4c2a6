/-
# Resolved formulas

A term is a formula whose names are resolved: every node has the kind of its values,
and calls hold their functions.  Nodes whose kind is always the same do not store it.
-/

import RowFormula.Function
import RowFormula.Tree

namespace RowFormula

/-- A formula whose names are resolved. -/
inductive Term where
  | constant (kind : Kind) (span : Span) (value : Value)
  | attributeRef (kind : Kind) (span : Span) (name : String)
  | macroRef (span : Span) (name : String)
  | unary (kind : Kind) (span : Span) (op : UnaryOp) (operand : Term)
  | arithmetic (kind : Kind) (span : Span) (op : ArithmeticOp) (left right : Term)
  | comparison (span : Span) (op : ComparisonOp) (left right : Term)
  | logical (span : Span) (op : LogicalOp) (left right : Term)
  | conditional (kind : Kind) (span : Span) (condition whenTrue whenFalse : Term)
  | call (kind : Kind) (span : Span) (function : Function) (args : List Term)

namespace Term

/-- The kind of the values of a term. -/
def kind : Term → Kind
  | constant k _ _ => k
  | attributeRef k _ _ => k
  | macroRef _ _ => .string
  | unary k _ _ _ => k
  | arithmetic k _ _ _ _ => k
  | comparison _ _ _ _ => .boolean
  | logical _ _ _ _ => .boolean
  | conditional k _ _ _ _ => k
  | call k _ _ _ => k

/-- Where a term was read from. -/
def span : Term → Span
  | constant _ s _ => s
  | attributeRef _ s _ => s
  | macroRef s _ => s
  | unary _ s _ _ => s
  | arithmetic _ s _ _ _ => s
  | comparison s _ _ _ => s
  | logical s _ _ _ => s
  | conditional _ s _ _ _ => s
  | call _ s _ _ => s

/-- The constant of a value. -/
def ofValue (span : Span) (value : Value) : Term := constant value.kind span value

/-- The value of a constant. -/
def constant? : Term → Option Value
  | constant _ _ value => some value
  | _ => none

mutual

/-- Number of nodes on the longest way down to a leaf. -/
def height : Term → Nat
  | unary _ _ _ operand => height operand + 1
  | arithmetic _ _ _ left right => max (height left) (height right) + 1
  | comparison _ _ left right => max (height left) (height right) + 1
  | logical _ _ left right => max (height left) (height right) + 1
  | conditional _ _ condition whenTrue whenFalse =>
    max (height condition) (max (height whenTrue) (height whenFalse)) + 1
  | call _ _ _ args => heights args + 1
  | _ => 1

/-- The greatest height in a list of terms. -/
def heights : List Term → Nat
  | [] => 0
  | t :: ts => max (height t) (heights ts)

end

/-- Induction over a term and all its parts. -/
@[induction_eliminator]
theorem induct {motive : Term → Prop}
    (constant : ∀ k span v, motive (.constant k span v))
    (attributeRef : ∀ k span name, motive (.attributeRef k span name))
    (macroRef : ∀ span name, motive (.macroRef span name))
    (unary : ∀ k span op x, motive x → motive (.unary k span op x))
    (arithmetic : ∀ k span op x y, motive x → motive y → motive (.arithmetic k span op x y))
    (comparison : ∀ span op x y, motive x → motive y → motive (.comparison span op x y))
    (logical : ∀ span op x y, motive x → motive y → motive (.logical span op x y))
    (conditional : ∀ k span c t e, motive c → motive t → motive e →
      motive (.conditional k span c t e))
    (call : ∀ k span f args, (∀ arg ∈ args, motive arg) → motive (.call k span f args))
    (t : Term) : motive t :=
  @Term.rec motive (fun ts => ∀ t ∈ ts, motive t) constant attributeRef macroRef unary
    arithmetic comparison logical conditional call nofun
    (fun _ _ ht hts => List.forall_mem_cons.2 ⟨ht, hts⟩) t

mutual

/-- Equality of terms without regard to spans.  Functions are the same if they were
registered as one. -/
def sameShape : Term → Term → Bool
  | constant k _ v, constant k' _ w => k == k' && v == w
  | attributeRef k _ a, attributeRef k' _ b => k == k' && a == b
  | macroRef _ a, macroRef _ b => a == b
  | unary k _ op x, unary k' _ op' y => k == k' && op == op' && sameShape x y
  | arithmetic k _ op l r, arithmetic k' _ op' l' r' =>
    k == k' && op == op' && sameShape l l' && sameShape r r'
  | comparison _ op l r, comparison _ op' l' r' =>
    op == op' && sameShape l l' && sameShape r r'
  | logical _ op l r, logical _ op' l' r' => op == op' && sameShape l l' && sameShape r r'
  | conditional k _ c t e, conditional k' _ c' t' e' =>
    k == k' && sameShape c c' && sameShape t t' && sameShape e e'
  | call k _ f args, call k' _ g args' =>
    k == k' && f.serial == g.serial && sameShapes args args'
  | _, _ => false

def sameShapes : List Term → List Term → Bool
  | [], [] => true
  | t :: ts, u :: us => sameShape t u && sameShapes ts us
  | _, _ => false

end

end Term

end RowFormula
