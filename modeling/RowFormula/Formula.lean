/-
# Formulas

A formula is compiled against the kinds that a row declares, and then runs against any
row.  Both steps may meet formulas inside of formulas: the kind of a nested formula is
found by compiling its text, its value by compiling and running it, each time one level
deeper.  The levels that are left bound the recursion.
-/

import RowFormula.Term.Analysis
import RowFormula.Term.Evaluation

namespace RowFormula

/-- A compiled formula. -/
structure Formula where
  source : String
  term : Term

namespace Formula

/-- The kind of all values of a formula. -/
def kind (f : Formula) : Kind := f.term.kind

/-- The value of a formula that does not depend on any row. -/
def constant? (f : Formula) : Option Value := f.term.constant?

/-- Compiles a text, given the kinds of the texts of nested formulas. -/
def compileWith (formulaKind : String → Except KindFault Kind) (ctx : Context)
    (source : String) : Except Error Formula :=
  match Tree.parse ctx.options.maxParseDepth source with
  | .error e => .error (.unreadable e)
  | .ok tree =>
    match Term.ofTree formulaKind ctx source tree with
    | .error e => .error (.illTyped e)
    | .ok term => .ok ⟨source, term⟩

/-- The kind of a text as a formula one level deeper than a context that allows so many
levels. -/
def nestedKind : (levels : Nat) → Context → String → Except KindFault Kind
  | 0, ctx, _ => .error (.nestingTooDeep ctx.options.maxNesting)
  | levels + 1, ctx, text =>
    match compileWith (nestedKind levels ctx.nested) ctx.nested text with
    | .ok f => .ok f.kind
    | .error e => .error (.invalidFormula text e)

/-- Compiles a text. -/
def compile (ctx : Context) (source : String) : Except Error Formula :=
  compileWith (nestedKind ctx.levels ctx) ctx source

/-- Runs a formula, given the values of the texts of nested formulas.  The limit on the
depth holds for this formula alone. -/
def runWith (evaluateFormula : String → Evaluation EvaluationFault Value) (ctx : Context)
    (maxDepth : Nat) (f : Formula) : Evaluation EvaluationError Value :=
  (f.term.evaluate evaluateFormula ctx maxDepth 0).mapError (.withSource f.source)

/-- The value of a text as a formula one level deeper than a context that allows so many
levels. -/
def nestedValue : (levels : Nat) → Context → String → Evaluation EvaluationFault Value
  | 0, ctx, _ => throw (.nestingTooDeep ctx.options.maxNesting)
  | levels + 1, ctx, text =>
    match compileWith (nestedKind levels ctx.nested) ctx.nested text with
    | .error e => throw (.nested text e)
    | .ok f =>
      (f.runWith (nestedValue levels ctx.nested) ctx.nested ctx.options.maxDepth).mapError
        fun e => .nested text (.failed e)

/-- Runs a formula with a limit on its depth. -/
def runWithin (maxDepth : Nat) (ctx : Context) (f : Formula) :
    Evaluation EvaluationError Value :=
  f.runWith (nestedValue ctx.levels ctx) ctx maxDepth

/-- Runs a formula. -/
def run (ctx : Context) (f : Formula) : Evaluation EvaluationError Value :=
  f.runWithin ctx.options.maxDepth ctx

/-- Compiles and runs a text in one go. -/
def evaluate (ctx : Context) (source : String) : Evaluation Error Value :=
  match compile ctx source with
  | .error e => throw e
  | .ok f => (f.run ctx).mapError .failed

/-- A formula that compiles is a tree that was read and resolved. -/
theorem compileWith_eq_ok {formulaKind : String → Except KindFault Kind} {ctx : Context}
    {source : String} {f : Formula} (h : compileWith formulaKind ctx source = .ok f) :
    ∃ tree, Tree.parse ctx.options.maxParseDepth source = .ok tree ∧
      Term.ofTree formulaKind ctx source tree = .ok f.term ∧ f.source = source := by
  unfold compileWith at h
  split at h
  · cases h
  · rename_i tree htree
    split at h
    · cases h
    · rename_i term hterm
      cases h
      exact ⟨tree, htree, hterm, rfl⟩

end Formula

end RowFormula
