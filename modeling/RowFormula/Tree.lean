/-
# Syntax trees

The tree of a formula before any name is resolved.  Every node knows the span it
was read from; `Tree.sameShape` compares trees without regard to spans.
-/

import RowFormula.Operator
import RowFormula.Span

namespace RowFormula

/-- A formula as it was read. -/
inductive Tree where
  | integer (x : Float) (span : Span)
  | float (x : Float) (span : Span)
  | text (s : String) (span : Span)
  /-- A bare name: a constant or an attribute. -/
  | ident (name : String) (span : Span)
  /-- An attribute in brackets. -/
  | attributeRef (name : String) (span : Span)
  /-- A reference to a macro. -/
  | macroRef (name : String) (span : Span)
  | unary (op : UnaryOp) (span : Span) (operand : Tree)
  | arithmetic (op : ArithmeticOp) (span : Span) (left right : Tree)
  | comparison (op : ComparisonOp) (span : Span) (left right : Tree)
  | logical (op : LogicalOp) (span : Span) (left right : Tree)
  | call (name : String) (span : Span) (args : List Tree)
  deriving Repr, Inhabited

namespace Tree

/-- Where a tree was read from. -/
def span : Tree → Span
  | integer _ s => s
  | float _ s => s
  | text _ s => s
  | ident _ s => s
  | attributeRef _ s => s
  | macroRef _ s => s
  | unary _ s _ => s
  | arithmetic _ s _ _ => s
  | comparison _ s _ _ => s
  | logical _ s _ _ => s
  | call _ s _ => s

/-- The same tree, read from somewhere else. -/
def withSpan (s : Span) : Tree → Tree
  | integer x _ => integer x s
  | float x _ => float x s
  | text t _ => text t s
  | ident name _ => ident name s
  | attributeRef name _ => attributeRef name s
  | macroRef name _ => macroRef name s
  | unary op _ operand => unary op s operand
  | arithmetic op _ left right => arithmetic op s left right
  | comparison op _ left right => comparison op s left right
  | logical op _ left right => logical op s left right
  | call name _ args => call name s args

mutual

/-- Number of nodes on the longest way down to a leaf. -/
def height : Tree → Nat
  | unary _ _ operand => height operand + 1
  | arithmetic _ _ left right => max (height left) (height right) + 1
  | comparison _ _ left right => max (height left) (height right) + 1
  | logical _ _ left right => max (height left) (height right) + 1
  | call _ _ args => heights args + 1
  | _ => 1

/-- The greatest height in a list of trees. -/
def heights : List Tree → Nat
  | [] => 0
  | t :: ts => max (height t) (heights ts)

end

mutual

/-- Equality of trees without regard to spans. -/
def sameShape : Tree → Tree → Bool
  | integer x _, integer y _ => x == y
  | float x _, float y _ => x == y
  | text s _, text t _ => s == t
  | ident a _, ident b _ => a == b
  | attributeRef a _, attributeRef b _ => a == b
  | macroRef a _, macroRef b _ => a == b
  | unary op _ x, unary op' _ y => op == op' && sameShape x y
  | arithmetic op _ l r, arithmetic op' _ l' r' =>
    op == op' && sameShape l l' && sameShape r r'
  | comparison op _ l r, comparison op' _ l' r' =>
    op == op' && sameShape l l' && sameShape r r'
  | logical op _ l r, logical op' _ l' r' => op == op' && sameShape l l' && sameShape r r'
  | call a _ args, call b _ args' => a == b && sameShapes args args'
  | _, _ => false

def sameShapes : List Tree → List Tree → Bool
  | [], [] => true
  | t :: ts, u :: us => sameShape t u && sameShapes ts us
  | _, _ => false

end

/-- Induction over a tree and all its parts. -/
@[induction_eliminator]
theorem induct {motive : Tree → Prop} (integer : ∀ x span, motive (.integer x span))
    (float : ∀ x span, motive (.float x span)) (text : ∀ s span, motive (.text s span))
    (ident : ∀ name span, motive (.ident name span))
    (attributeRef : ∀ name span, motive (.attributeRef name span))
    (macroRef : ∀ name span, motive (.macroRef name span))
    (unary : ∀ op span x, motive x → motive (.unary op span x))
    (arithmetic : ∀ op span x y, motive x → motive y → motive (.arithmetic op span x y))
    (comparison : ∀ op span x y, motive x → motive y → motive (.comparison op span x y))
    (logical : ∀ op span x y, motive x → motive y → motive (.logical op span x y))
    (call : ∀ name span args, (∀ arg ∈ args, motive arg) → motive (.call name span args))
    (t : Tree) : motive t :=
  @Tree.rec motive (fun ts => ∀ t ∈ ts, motive t) integer float text ident attributeRef
    macroRef unary arithmetic comparison logical call nofun
    (fun _ _ ht hts => List.forall_mem_cons.2 ⟨ht, hts⟩) t

@[simp]
theorem span_withSpan (s : Span) (t : Tree) : (t.withSpan s).span = s := by
  cases t <;> rfl

end Tree

end RowFormula
