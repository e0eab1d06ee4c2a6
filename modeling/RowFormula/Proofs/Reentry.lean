/-
# Re-entrant evaluation

A formula can evaluate texts as formulas, at run time through bodies of functions and while
it is compiled through the rules for their kinds.  The texts may come from the row and may
refer to themselves, so nothing in them needs to shrink.  What ends the recursion is that
each time the context is nested one level deeper and that the nesting has a limit.

A `Reentry` stands for the answers to the questions that a formula asks about texts, and
`Reentry.unfold` answers them by compiling and running formulas that ask in turn.  This is
the recursion as it stands, without levels; `Reentry.bounded` is its solution by levels.
-/

import Mathlib.Logic.Function.Iterate
import RowFormula.Proofs.Calling
import RowFormula.Proofs.Levels

namespace RowFormula

/-- Kinds and values of the texts that are formulas inside of formulas, by the context in
which they are asked for. -/
structure Reentry where
  kind : Context → String → Except KindFault Kind
  value : Context → String → Evaluation EvaluationFault Value

namespace Reentry

/-- Compiles a text with the help of given answers. -/
def compile (r : Reentry) (ctx : Context) (source : String) : Except Error Formula :=
  Formula.compileWith (r.kind ctx) ctx source

/-- Compiles and runs a text with the help of given answers. -/
def evaluate (r : Reentry) (ctx : Context) (source : String) : Evaluation Error Value :=
  match r.compile ctx source with
  | .error e => throw e
  | .ok f => (f.runWith (r.value ctx) ctx ctx.options.maxDepth).mapError .failed

/-- Answers by one more re-entry: a text is compiled and run one level deeper, unless the
context is nested as deep as its limit allows. -/
def unfold (r : Reentry) : Reentry where
  kind ctx text :=
    if ctx.options.maxNesting ≤ ctx.nesting then .error (.nestingTooDeep ctx.options.maxNesting)
    else
      match r.compile ctx.nested text with
      | .ok f => .ok f.kind
      | .error e => .error (.invalidFormula text e)
  value ctx text :=
    if ctx.options.maxNesting ≤ ctx.nesting then throw (.nestingTooDeep ctx.options.maxNesting)
    else (r.evaluate ctx.nested text).mapError (.nested text)

/-- The answers that formulas get. -/
def bounded : Reentry where
  kind ctx := Formula.nestedKind ctx.levels ctx
  value ctx := Formula.nestedValue ctx.levels ctx

theorem bounded_compile : bounded.compile = Formula.compile := rfl

theorem bounded_evaluate : bounded.evaluate = Formula.evaluate := by
  funext ctx source
  rw [evaluate, Formula.evaluate, bounded_compile]
  rfl

/-- The answers that formulas get solve the recursion. -/
theorem unfold_bounded : bounded.unfold = bounded := by
  have hkind : bounded.unfold.kind = bounded.kind := by
    funext ctx text
    exact (Formula.nestedKind_levels ctx text).symm
  have hvalue : bounded.unfold.value = bounded.value := by
    funext ctx text
    refine Eq.trans ?_ (Formula.nestedValue_levels ctx text).symm
    rw [unfold, bounded_evaluate]
  calc bounded.unfold = ⟨bounded.unfold.kind, bounded.unfold.value⟩ := rfl
    _ = ⟨bounded.kind, bounded.value⟩ := by rw [hkind, hvalue]

/-- After as many re-entries as there are levels left nothing is asked any more: whatever
stands for the answers further in, the answers are those of the solution. -/
theorem iterate_unfold (r : Reentry) {n : Nat} {ctx : Context} (h : ctx.levels < n) :
    (unfold^[n] r).kind ctx = bounded.kind ctx ∧ (unfold^[n] r).value ctx = bounded.value ctx := by
  induction n generalizing ctx with
  | zero => exact absurd h (Nat.not_lt_zero _)
  | succ n ih =>
      rw [Function.iterate_succ_apply', ← unfold_bounded]
      by_cases hclosed : ctx.options.maxNesting ≤ ctx.nesting
      · simp only [unfold, if_pos hclosed, and_self]
      · have hdeeper : ctx.nested.levels < n := by
          rw [Context.levels] at h ⊢
          show ctx.options.maxNesting - (ctx.nesting + 1) < n
          omega
        obtain ⟨hkind, hvalue⟩ := ih hdeeper
        simp only [unfold, evaluate, compile, hkind, hvalue, and_self]

end Reentry

/-- A fault that has to do with the nesting of formulas. -/
def EvaluationFault.concernsNesting : EvaluationFault → Bool
  | nestingTooDeep _ | nested .. => true
  | _ => false

/-- The body of the function has a fault that concerns nesting only if a formula has it that
the body evaluates. -/
def Function.PassesOn (f : Function) : Prop :=
  ∀ (ctx : Context) evaluateFormula k values fault,
    (f.body (ctx.call evaluateFormula f k) values).Fails fault → fault.concernsNesting = true →
    ∃ text, (evaluateFormula text).Fails fault

/-- All functions of the registry pass such faults on. -/
def Registry.PassesOn (r : Registry) : Prop :=
  ∀ name f, r.get? name = some f → f.PassesOn

/-- A fault that has to do with neither the depth nor the nesting of formulas. -/
def EvaluationFault.isOwn : EvaluationFault → Bool
  | depthExceeded .. | nestingTooDeep _ | nested .. => false
  | _ => true

theorem EvaluationFault.isOwn_of_isLocal {fault : EvaluationFault} (h : fault.isLocal = true) :
    fault.isOwn = true := by
  cases fault with
  | unknownMacro | unknownParameter | rejected => rfl
  | _ => cases h

namespace Catalog

/-- A function of the catalog has a fault of its own, or one of a formula that it evaluates. -/
theorem isOwn_or_fails {name : String} {f : Function} (hf : registry.get? name = some f)
    {ctx : Context} {evaluateFormula : String → Evaluation EvaluationFault Value} {k : Kind}
    {values : List Value} {fault : EvaluationFault}
    (h : (f.body (ctx.call evaluateFormula f k) values).Fails fault) :
    fault.isOwn = true ∨ ∃ text, (evaluateFormula text).Fails fault := by
  obtain hregular | ⟨serial, rfl | rfl⟩ := of_get?_registry hf
  · have hlocal := (hregular.outcome ctx evaluateFormula k values).2 fault h
    exact .inl (EvaluationFault.isOwn_of_isLocal hlocal)
  · obtain ⟨text, -, hformula | ⟨v, -, -, rfl⟩⟩ := nestedFormula_ensures.2 fault h
    · exact .inr ⟨text, hformula⟩
    · exact .inl rfl
  · obtain ⟨name, -, ⟨-, rfl⟩ | ⟨v, -, -, rfl⟩⟩ := attributeByName_ensures.2 fault h <;>
      exact .inl rfl

theorem registry_passesOn : registry.PassesOn := by
  intro name f hf ctx evaluateFormula k values fault hfails hnesting
  obtain hown | hpassed := isOwn_or_fails hf hfails
  · cases fault with
    | nestingTooDeep | nested => cases hown
    | _ => cases hnesting
  · exact hpassed

end Catalog

namespace Term

/-- All calls of the term are of functions that pass faults on. -/
def PassesOn (t : Term) : Prop :=
  ∀ k span f args, t.HasNode (.call k span f args) → f.PassesOn

variable {evaluateFormula : String → Evaluation EvaluationFault Value} {ctx : Context}
variable {maxDepth depth : Nat}

/-- A node has a fault that concerns nesting only from a formula that it evaluates. -/
theorem Faults.passedOn {node : Term} {fault : EvaluationFault}
    (h : Faults evaluateFormula ctx maxDepth depth node fault) (hnode : node.PassesOn)
    (hnesting : fault.concernsNesting = true) : ∃ text, (evaluateFormula text).Fails fault := by
  cases h with
  | body _ hfails => exact hnode _ _ _ _ .self ctx evaluateFormula _ _ fault hfails hnesting
  | _ => cases hnesting

theorem PassesOn.of_hasNode {t node : Term} (ht : t.PassesOn) (hnode : t.HasNode node) :
    node.PassesOn :=
  fun k span f args hcall => ht k span f args (hnode.trans hcall)

end Term

namespace Formula

theorem passesOn_of_compile {ctx : Context} {source : String} {f : Formula}
    (hfunctions : ctx.functions.PassesOn) (h : compile ctx source = .ok f) : f.term.PassesOn := by
  obtain ⟨tree, -, hterm, -⟩ := compileWith_eq_ok h
  intro k span g args hnode
  obtain ⟨⟨name, hname⟩, -⟩ := Term.resolvedIn_ofTree hterm _ hnode
  exact hfunctions name g hname

end Formula

/-- Following the error through nested formulas ends in a fault about nesting only after as
many of them as the limit allows, and the fault states the limit. -/
def Error.EndsAtLimit (error : Error) (limit : Nat) : Prop :=
  ∀ n e m, error.within? n = some e → e.fault = .nestingTooDeep m → n = limit ∧ m = limit

namespace Formula

/-- The error inside of an error is that of a formula one level deeper, which compiles there and
fails with it. -/
theorem fails_nested {ctx : Context} {f : Formula} (hf : f.term.PassesOn) {maxDepth n : Nat}
    {e₀ e : EvaluationError} (hfails : (f.runWithin maxDepth ctx).Fails e₀)
    (hn : (Error.failed e₀).within? (n + 1) = some e) :
    ctx.nesting + 1 ≤ ctx.options.maxNesting ∧ ∃ g e', compile ctx.nested g.source = .ok g ∧
      (g.run ctx.nested).Fails e' ∧ (Error.failed e').within? n = some e := by
  obtain ⟨node, depth, fault, hnode, hfault, rfl⟩ := fails_runWithin hfails
  obtain ⟨text, error, hwrapped, hinner⟩ := Error.within?_failed_succ_eq_some_iff.1 hn
  obtain rfl : fault = .nested text error := hwrapped
  obtain ⟨text', htext⟩ := hfault.passedOn (hf.of_hasNode hnode) rfl
  obtain ⟨-, hlimit⟩ | ⟨hopen, error', herror, hwrapped⟩ := fails_nestedValue htext
  · cases hlimit
  · cases hwrapped
    obtain hcompile | ⟨g, e', hcompile, hrun, rfl⟩ := fails_evaluate herror
    · rw [within?_of_compile_eq_error hcompile] at hinner
      cases hinner
    · obtain ⟨-, -, -, rfl⟩ := compileWith_eq_ok hcompile
      exact ⟨hopen, g, e', hcompile, hrun, hinner⟩

/-- An error that stands inside of an error is that of a formula so many levels deeper. -/
theorem fails_of_within {ctx : Context} (hfunctions : ctx.functions.PassesOn) {f : Formula}
    (hf : f.term.PassesOn) {maxDepth n : Nat} {e₀ e : EvaluationError}
    (hfails : (f.runWithin maxDepth ctx).Fails e₀)
    (hn : (Error.failed e₀).within? (n + 1) = some e) :
    ctx.nesting + (n + 1) ≤ ctx.options.maxNesting ∧
      ∃ g, compile (ctx.nestedBy (n + 1)) g.source = .ok g ∧
        (g.run (ctx.nestedBy (n + 1))).Fails e := by
  induction n generalizing ctx f maxDepth e₀ with
  | zero =>
      obtain ⟨hopen, g, e', hg, hrun, hinner⟩ := fails_nested hf hfails hn
      obtain rfl := Option.some.inj hinner
      exact ⟨hopen, g, hg, hrun⟩
  | succ n ih =>
      obtain ⟨-, g, e', hg, hrun, hinner⟩ := fails_nested hf hfails hn
      have hpasses := @passesOn_of_compile ctx.nested _ _ hfunctions hg
      obtain ⟨hopen, hdeeper⟩ := @ih ctx.nested hfunctions g hpasses _ _ hrun hinner
      rw [← Context.nestedBy_succ] at hdeeper
      have hlevels : ctx.nesting + 1 + (n + 1) ≤ ctx.options.maxNesting := hopen
      exact ⟨by omega, hdeeper⟩

/-- A fault about nesting that a run has by itself is found where no deeper formula is
allowed. -/
theorem nesting_of_fails {ctx : Context} {f : Formula} (hf : f.term.PassesOn) {maxDepth m : Nat}
    {e : EvaluationError} (hfails : (f.runWithin maxDepth ctx).Fails e)
    (hm : e.fault = .nestingTooDeep m) :
    ctx.options.maxNesting ≤ ctx.nesting ∧ m = ctx.options.maxNesting := by
  obtain ⟨node, depth, fault, hnode, hfault, rfl⟩ := fails_runWithin hfails
  obtain rfl : fault = .nestingTooDeep m := hm
  obtain ⟨text, htext⟩ := hfault.passedOn (hf.of_hasNode hnode) rfl
  obtain ⟨hclosed, hlimit⟩ | ⟨-, error, -, hwrapped⟩ := fails_nestedValue htext
  · cases hlimit
    exact ⟨hclosed, rfl⟩
  · cases hwrapped

/-- A fault about nesting is found at once if the context allows no deeper formula, and
otherwise comes from a formula at the limit. -/
theorem endsAtLimit_of_fails {ctx : Context} (hfunctions : ctx.functions.PassesOn) {f : Formula}
    (hf : f.term.PassesOn) {maxDepth n m : Nat} {e₀ e : EvaluationError}
    (hfails : (f.runWithin maxDepth ctx).Fails e₀) (hn : (Error.failed e₀).within? n = some e)
    (hm : e.fault = .nestingTooDeep m) (hnesting : ctx.nesting ≤ ctx.options.maxNesting) :
    ctx.nesting + n = ctx.options.maxNesting ∧ m = ctx.options.maxNesting := by
  cases n with
  | zero =>
      obtain rfl := Option.some.inj hn
      obtain ⟨hclosed, hlimit⟩ := nesting_of_fails hf hfails hm
      exact ⟨Nat.le_antisymm hnesting hclosed, hlimit⟩
  | succ n =>
      obtain ⟨hopen, g, hg, hrun⟩ := fails_of_within hfunctions hf hfails hn
      have hpasses := @passesOn_of_compile (ctx.nestedBy (n + 1)) _ _ hfunctions hg
      obtain ⟨hclosed, hlimit⟩ := nesting_of_fails hpasses hrun hm
      exact ⟨Nat.le_antisymm hopen hclosed, hlimit⟩

/-- Evaluation in a context that is not nested always ends, and at the limit exactly.  The
answers that formulas get about the texts inside of them solve the recursion, and they are
found by no more re-entries than one for each level and one more, whatever stands for the
answers beyond.  What bodies and rules do in contexts that are nested deeper than the limit
makes no difference, as none is called there.  If functions pass faults about nesting on, an
error that ends in such a fault is wrapped exactly as often as the limit says. -/
theorem nesting_limit_exact {ctx : Context} (hnesting : ctx.nesting = 0)
    (hfunctions : ctx.functions.PassesOn) :
    Reentry.bounded.unfold = Reentry.bounded ∧
    (∀ (r : Reentry) n source, ctx.options.maxNesting < n →
      (Reentry.unfold^[n] r).compile ctx source = compile ctx source ∧
      (Reentry.unfold^[n] r).evaluate ctx source = evaluate ctx source) ∧
    (∀ σ : Replacement, σ.StandsIn ctx.options.maxNesting → ∀ source,
      compile (ctx.replace σ) source = (compile ctx source).map (replace σ) ∧
      evaluate (ctx.replace σ) source = evaluate ctx source) ∧
    (∀ source error, (evaluate ctx source).Fails error →
      error.EndsAtLimit ctx.options.maxNesting) ∧
    ∀ (row : Row) source f, compile { ctx with row := row } source = .ok f → ∀ maxDepth,
      (∀ σ : Replacement, σ.StandsIn ctx.options.maxNesting →
        (f.replace σ).runWithin maxDepth (ctx.replace σ) = f.runWithin maxDepth ctx) ∧
      ∀ e, (f.runWithin maxDepth ctx).Fails e →
        (Error.failed e).EndsAtLimit ctx.options.maxNesting := by
  have hlevels : ctx.levels = ctx.options.maxNesting := by
    rw [Context.levels, hnesting, Nat.sub_zero]
  have hinside : ctx.nesting ≤ ctx.options.maxNesting := by omega
  have hrun : ∀ f : Formula, f.term.PassesOn → ∀ maxDepth e, (f.runWithin maxDepth ctx).Fails e →
      (Error.failed e).EndsAtLimit ctx.options.maxNesting := by
    intro f hf maxDepth e he n inner m hn hm
    have hcount := endsAtLimit_of_fails hfunctions hf he hn hm hinside
    rwa [hnesting, Nat.zero_add] at hcount
  refine ⟨Reentry.unfold_bounded, ?ends, ?bodies, ?evaluated, ?compiled⟩
  case ends =>
    intro r n source hn
    obtain ⟨hkind, hvalue⟩ := r.iterate_unfold (hlevels.symm ▸ hn)
    rw [← Reentry.bounded_evaluate, ← Reentry.bounded_compile]
    simp only [Reentry.evaluate, Reentry.compile, hkind, hvalue, and_self]
  case bodies =>
    intro σ hσ source
    exact ⟨compile_replace hσ hinside (Nat.le_refl _) source,
      evaluate_replace hσ hinside (Nat.le_refl _) source⟩
  case evaluated =>
    intro source error herror
    obtain hcompile | ⟨f, e, hcompile, he, rfl⟩ := fails_evaluate herror
    · intro n inner m hn
      rw [within?_of_compile_eq_error hcompile] at hn
      cases hn
    · exact hrun f (passesOn_of_compile hfunctions hcompile) _ e he
  case compiled =>
    intro row source f hcompile maxDepth
    have hf := @passesOn_of_compile { ctx with row := row } _ _ hfunctions hcompile
    refine ⟨fun σ hσ => ?_, hrun f hf maxDepth⟩
    exact runWithin_replace hσ hinside (Nat.le_refl _) (wellKinded_of_compile hcompile) maxDepth

/-- An attribute that holds the formula which looks it up. -/
theorem nesting_limit_exact_of_self_reference :
    let ctx := ({ options := { maxNesting := 2 } } : Engine).context ⟨0, 0⟩
      (Row.ofList [("a", .ofString "eval([a], REAL)")])
    ∃ error e, (evaluate ctx "eval([a], REAL)").Fails error ∧ error.within? 2 = some e ∧
      e.fault = .nestingTooDeep 2 ∧ error.EndsAtLimit 2 := by
  intro ctx
  have hcheck : (match ((evaluate ctx "eval([a], REAL)").outcome default).1 with
      | .ok _ => false
      | .error error => (error.within? 2).any fun e =>
        match e.fault with
        | .nestingTooDeep m => m == 2
        | _ => false) = true := by
    decide +kernel
  split at hcheck
  · cases hcheck
  · rename_i error herror
    obtain ⟨e, he, hfault⟩ := (Option.any_eq_true _ _).1 hcheck
    have hfails : (evaluate ctx "eval([a], REAL)").Fails error := ⟨default, herror⟩
    have hlimit := (@nesting_limit_exact ctx rfl Catalog.registry_passesOn).2.2.2.1
    refine ⟨error, e, hfails, he, ?_, hlimit _ error hfails⟩
    split at hfault
    · rename_i m hm
      rw [hm, eq_of_beq hfault]
    · cases hfault

end Formula

end RowFormula
