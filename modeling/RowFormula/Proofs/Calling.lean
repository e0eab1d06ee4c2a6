/-
# The calling convention

Arguments are checked once, by their kinds, when a formula is compiled.  Bodies run later,
on values from other rows, from nested calls and from branches that were converted.  That
the values still fit rests on the soundness of the kinds of all arguments.

To speak of every call that ever takes place, those in formulas evaluated by formulas
included, all bodies and all rules for kinds are replaced by others.  If the others differ
only where they are called against the convention, nothing that a formula does can tell the
difference.
-/

import RowFormula.Proofs.Catalog
import RowFormula.Proofs.Folding
import RowFormula.Proofs.KindSoundness

namespace RowFormula

/-- Other bodies and other rules for the kinds of calls. -/
structure Replacement where
  body : Function → Body
  rule : Function → ResultRule

namespace Replacement

/-- The replacement agrees with the functions on arguments that their signature accepts, in
contexts that are nested no deeper than some limit. -/
structure StandsIn (σ : Replacement) (limit : Nat) : Prop where
  body : ∀ (f : Function) (call : Call) values, f.signature.Accepts (values.map Value.kind) →
    call.nesting ≤ limit → σ.body f call values = f.body call values
  rule : ∀ (f : Function) (request : KindRequest),
    f.signature.Accepts (request.args.map ArgInfo.kind) → request.nesting ≤ limit →
    (σ.rule f).resolve request = f.result.resolve request

/-- The same functions, which first make sure that they are called by the convention. -/
def checked : Replacement where
  body f call values :=
    if f.signature.Accepts (values.map Value.kind) then f.body call values
    else throw (call.noArgument values.length values.length)
  rule f := .custom fun request =>
    if f.signature.Accepts (request.args.map ArgInfo.kind) then f.result.resolve request
    else .error (request.noArgument request.args.length request.args.length)

theorem checked_standsIn (limit : Nat) : checked.StandsIn limit where
  body := fun _ _ _ haccepts _ => if_pos haccepts
  rule := fun _ _ haccepts _ => if_pos haccepts

end Replacement

section Replacing

variable (σ : Replacement)

def Function.replace (f : Function) : Function :=
  { f with body := σ.body f, result := σ.rule f }

def Registry.replace (r : Registry) : Registry :=
  { r with functions := r.functions.map (Function.replace σ) }

def Context.replace (ctx : Context) : Context :=
  { ctx with functions := ctx.functions.replace σ }

mutual

/-- Replaces the functions of all calls. -/
def Term.replace : Term → Term
  | .unary k span op x => .unary k span op (Term.replace x)
  | .arithmetic k span op x y => .arithmetic k span op (Term.replace x) (Term.replace y)
  | .comparison span op x y => .comparison span op (Term.replace x) (Term.replace y)
  | .logical span op x y => .logical span op (Term.replace x) (Term.replace y)
  | .conditional k span c t e =>
    .conditional k span (Term.replace c) (Term.replace t) (Term.replace e)
  | .call k span f args => .call k span (f.replace σ) (Term.replaceAll args)
  | t => t

/-- Replaces the functions of all calls in each term of a list. -/
def Term.replaceAll : List Term → List Term
  | [] => []
  | t :: ts => Term.replace t :: Term.replaceAll ts

end

def Formula.replace (f : Formula) : Formula :=
  ⟨f.source, f.term.replace σ⟩

end Replacing

variable {σ : Replacement}

theorem Registry.get?_replace (r : Registry) (name : String) :
    (r.replace σ).get? name = (r.get? name).map (Function.replace σ) :=
  Table.get?_map _ _ _

namespace Term

/-! ### Arguments -/

section Arguments

variable {evaluateFormula : String → Evaluation EvaluationFault Value} {ctx : Context}
variable {maxDepth depth : Nat} {k : Kind} {span : Span} {f : Function} {args : List Term}
variable {values : List Value}

theorem accepts_of_not_misplaced {signature : Signature} {start position : Nat}
    (h : misplaced? signature start args = none) (hk : (args.map kind)[position]? = some k) :
    (signature.acceptedAt (start + position)).accepts k = true := by
  induction args generalizing start position with
  | nil => simp at hk
  | cons arg args ih =>
      rw [misplaced?] at h
      split at h
      · cases position with
        | zero =>
            obtain rfl : arg.kind = k := by simpa using hk
            assumption
        | succ position =>
            have haccepts := ih h (by simpa using hk)
            rwa [Nat.add_assoc, Nat.add_comm 1] at haccepts
      · cases h

theorem signature_accepts (hcount : f.signature.arity.accepts args.length = true)
    (hplaced : misplaced? f.signature 0 args = none) : f.signature.Accepts (args.map kind) := by
  refine ⟨by rwa [List.length_map], fun position k hk => ?_⟩
  have haccepts := accepts_of_not_misplaced hplaced hk
  rwa [Nat.zero_add] at haccepts

theorem kinds_of_returns (hargs : ∀ arg ∈ args, arg.WellKinded)
    (h : (evaluateAll evaluateFormula ctx maxDepth depth args).Returns values) :
    values.map Value.kind = args.map kind := by
  induction args generalizing values with
  | nil =>
      obtain rfl := Evaluation.returns_pure.1 h
      rfl
  | cons arg args ih =>
      rw [evaluateAll] at h
      obtain ⟨v, hv, h⟩ := h.of_bind
      obtain ⟨vs, hvs, h⟩ := h.of_bind
      obtain rfl := Evaluation.returns_pure.1 h
      have hkind := (hargs arg List.mem_cons_self).kind_of_returns hv
      have hkinds := ih (fun t ht => hargs t (List.mem_cons_of_mem _ ht)) hvs
      rw [List.map_cons, List.map_cons, hkind, hkinds]

/-- The values of the arguments of a call fit the signature of its function. -/
theorem WellKinded.accepts_of_returns (h : (Term.call k span f args).WellKinded)
    (hvalues : (evaluateAll evaluateFormula ctx maxDepth depth args).Returns values) :
    f.signature.Accepts (values.map Value.kind) := by
  cases h with
  | call hcount hplaced hargs =>
      rw [kinds_of_returns hargs hvalues]
      exact signature_accepts hcount hplaced

end Arguments

/-! ### Replacing functions while formulas are compiled -/

@[simp]
theorem replaceAll_eq_map (ts : List Term) : replaceAll σ ts = ts.map (replace σ) := by
  induction ts with
  | nil => rfl
  | cons t ts ih => rw [replaceAll, ih, List.map_cons]

@[simp]
theorem kind_replace (t : Term) : (t.replace σ).kind = t.kind := by
  cases t <;> rfl

@[simp]
theorem span_replace (t : Term) : (t.replace σ).span = t.span := by
  cases t <;> rfl

@[simp]
theorem constant?_replace (t : Term) : (t.replace σ).constant? = t.constant? := by
  cases t <;> rfl

theorem folded?_replace (t : Term) : (t.replace σ).folded? = t.folded? := by
  cases t <;> simp [replace, folded?]

theorem fold_replace (t : Term) : (t.replace σ).fold = t.fold.replace σ := by
  rw [fold, fold, folded?_replace, kind_replace, span_replace]
  cases t.folded? <;> rfl

section Resolving

variable {formulaKind : String → Except KindFault Kind} {ctx : Context} {source : String}
variable {span : Span}

theorem ofUnary_replace (op : UnaryOp) (x : Term) :
    (ofUnary source op span (x.replace σ) >>= fun node => pure node.fold) =
      (ofUnary source op span x >>= fun node => pure node.fold).map (replace σ) := by
  unfold ofUnary
  rw [kind_replace]
  cases unaryKind? op x.kind with
  | none => rfl
  | some k => exact congrArg Except.ok (fold_replace (unary k span op x))

theorem ofArithmetic_replace (op : ArithmeticOp) (x y : Term) :
    (ofArithmetic source op span (x.replace σ) (y.replace σ) >>= fun node => pure node.fold) =
      (ofArithmetic source op span x y >>= fun node => pure node.fold).map (replace σ) := by
  unfold ofArithmetic
  rw [kind_replace, kind_replace]
  cases arithmeticKind? op x.kind y.kind with
  | none => rfl
  | some k => exact congrArg Except.ok (fold_replace (arithmetic k span op x y))

theorem ofComparison_replace (op : ComparisonOp) (x y : Term) :
    (ofComparison source op span (x.replace σ) (y.replace σ) >>= fun node => pure node.fold) =
      (ofComparison source op span x y >>= fun node => pure node.fold).map (replace σ) := by
  unfold ofComparison
  rw [kind_replace, kind_replace]
  split
  · exact congrArg Except.ok (fold_replace (comparison span op x y))
  · rfl

theorem ofLogical_replace (op : LogicalOp) (x y : Term) :
    (ofLogical source op span (x.replace σ) (y.replace σ) >>= fun node => pure node.fold) =
      (ofLogical source op span x y >>= fun node => pure node.fold).map (replace σ) := by
  unfold ofLogical
  rw [kind_replace, kind_replace]
  split
  · exact congrArg Except.ok (fold_replace (logical span op x y))
  · rfl

theorem ofConditional_replace (c t e : Term) :
    ofConditional span (c.replace σ) (t.replace σ) (e.replace σ) =
      (ofConditional span c t e).replace σ := by
  rw [ofConditional, ofConditional, kind_replace, kind_replace, constant?_replace]
  cases c.constant? <;> rfl

theorem functionFor_replace (name : String) (count : Nat) :
    functionFor (ctx.replace σ) source name count span =
      (functionFor ctx source name count span).map (Function.replace σ) := by
  unfold functionFor
  rw [show (ctx.replace σ).functions = ctx.functions.replace σ from rfl, Registry.get?_replace]
  cases ctx.functions.get? name with
  | none => rfl
  | some f =>
      show (if f.signature.arity.accepts count then _ else _) = _
      dsimp only
      split <;> rfl

theorem misplaced?_replace (signature : Signature) (start : Nat) (args : List Term) :
    misplaced? signature start (args.map (replace σ)) =
      (misplaced? signature start args).map fun m => (m.1, m.2.replace σ) := by
  induction args generalizing start with
  | nil => rfl
  | cons arg args ih =>
      rw [List.map_cons, misplaced?, misplaced?, kind_replace, ih]
      split <;> rfl

variable {limit : Nat}

theorem callKind_replace (hσ : σ.StandsIn limit) (hnesting : ctx.nesting ≤ limit) {f : Function}
    {args : List Term} (hcount : f.signature.arity.accepts args.length = true) (name : String) :
    callKind formulaKind (ctx.replace σ) source name span (f.replace σ)
        (args.map (replace σ)) =
      callKind formulaKind ctx source name span f args := by
  unfold callKind
  rw [show (f.replace σ).signature = f.signature from rfl, misplaced?_replace]
  cases hplaced : misplaced? f.signature 0 args with
  | some m =>
      show fail source (.argumentMismatch name m.1 _ (m.2.replace σ).kind)
        (m.2.replace σ).span = _
      rw [kind_replace, span_replace]
  | none =>
      have haccepts := signature_accepts hcount hplaced
      have hrule : (σ.rule f).resolve (ctx.kindRequest formulaKind
            (args.map fun arg => ⟨arg.kind, arg.constant?⟩)) =
          f.result.resolve (ctx.kindRequest formulaKind
            (args.map fun arg => ⟨arg.kind, arg.constant?⟩)) := by
        refine hσ.rule f _ ?_ hnesting
        simpa [Context.kindRequest, Function.comp_def] using haccepts
      have hinfos : (args.map (replace σ)).map (fun arg => ArgInfo.mk arg.kind arg.constant?) =
          args.map fun arg => ⟨arg.kind, arg.constant?⟩ := by
        simp [Function.comp_def]
      dsimp only [Option.map_none]
      rw [hinfos, show (f.replace σ).result = σ.rule f from rfl,
        show (ctx.replace σ).kindRequest = ctx.kindRequest from rfl, hrule]

theorem ofTrees_replace {trees : List Tree}
    (h : ∀ tree ∈ trees, ofTree formulaKind (ctx.replace σ) source tree =
      (ofTree formulaKind ctx source tree).map (replace σ)) :
    ofTrees formulaKind (ctx.replace σ) source trees =
      (ofTrees formulaKind ctx source trees).map (List.map (replace σ)) := by
  induction trees with
  | nil => rfl
  | cons tree trees ih =>
      rw [ofTrees, ofTrees, h tree List.mem_cons_self,
        ih fun t ht => h t (List.mem_cons_of_mem _ ht)]
      exact map_bind_eq_map fun x => map_bind_eq_map fun xs => rfl

/-- Replacing functions that are only called by the convention replaces them in the result
of resolving, and changes nothing else. -/
theorem ofTree_replace (hσ : σ.StandsIn limit) (hnesting : ctx.nesting ≤ limit) (tree : Tree) :
    ofTree formulaKind (ctx.replace σ) source tree =
      (ofTree formulaKind ctx source tree).map (replace σ) := by
  induction tree with
  | integer | float | text | macroRef => rfl
  | ident name span =>
      rw [ofTree, ofTree]
      show ofIdent ctx source name span = _
      cases h : ofIdent ctx source name span with
      | error => rfl
      | ok t => obtain ⟨v, -, rfl⟩ | ⟨k, -, rfl⟩ := ofIdent_eq_ok h <;> rfl
  | attributeRef name span =>
      rw [ofTree, ofTree]
      show ofAttribute ctx source _ name span = _
      cases h : ofAttribute ctx source (.unknownAttribute name) name span with
      | error => rfl
      | ok t =>
          obtain ⟨k, -, rfl⟩ := ofAttribute_eq_ok h
          rfl
  | unary op span operand ih =>
      rw [ofTree, ofTree, ih]
      exact map_bind_eq_map fun x => ofUnary_replace op x
  | arithmetic op span left right ihl ihr =>
      rw [ofTree, ofTree, ihl, ihr]
      exact map_bind_eq_map fun x => map_bind_eq_map fun y => ofArithmetic_replace op x y
  | comparison op span left right ihl ihr =>
      rw [ofTree, ofTree, ihl, ihr]
      exact map_bind_eq_map fun x => map_bind_eq_map fun y => ofComparison_replace op x y
  | logical op span left right ihl ihr =>
      rw [ofTree, ofTree, ihl, ihr]
      exact map_bind_eq_map fun x => map_bind_eq_map fun y => ofLogical_replace op x y
  | call name span args ih =>
      by_cases hname : name = conditionalName
      · subst hname
        rcases args with _ | ⟨condition, _ | ⟨whenTrue, _ | ⟨whenFalse, _ | ⟨_, _⟩⟩⟩⟩
        · rfl
        · rfl
        · rfl
        · rw [ofTree, ofTree, if_pos rfl, if_pos rfl, ih condition (by simp),
            ih whenTrue (by simp), ih whenFalse (by simp)]
          refine map_bind_eq_map fun c => ?_
          rw [kind_replace, span_replace, selected?, selected?, constant?_replace]
          by_cases htruthy : (!c.kind.isTruthy) = true
          · rw [if_pos htruthy, if_pos htruthy]
            rfl
          · rw [if_neg htruthy, if_neg htruthy]
            split
            · rfl
            · rfl
            · refine map_bind_eq_map fun t => map_bind_eq_map fun e => ?_
              exact congrArg Except.ok (ofConditional_replace c t e)
        · rfl
      · rw [ofTree_call hname, ofTree_call hname, functionFor_replace, ofTrees_replace ih]
        cases hf : functionFor ctx source name args.length span with
        | error => rfl
        | ok f =>
            cases hts : ofTrees formulaKind ctx source args with
            | error => rfl
            | ok ts =>
                have hcount := (functionFor_eq_ok hf).2
                rw [← (ofTrees_eq_ok hts).1] at hcount
                show ofCall formulaKind (ctx.replace σ) source name span (f.replace σ)
                    (ts.map (replace σ)) =
                  (ofCall formulaKind ctx source name span f ts).map (replace σ)
                rw [ofCall, ofCall, callKind_replace hσ hnesting hcount, ← replaceAll_eq_map]
                cases callKind formulaKind ctx source name span f ts <;> rfl

end Resolving

/-! ### Replacing functions while formulas run -/

section Evaluating

variable {evaluateFormula : String → Evaluation EvaluationFault Value} {ctx : Context}
variable {maxDepth depth limit : Nat}

/-- Replacing functions that are only called by the convention does not change what a
well-kinded term evaluates to.  The induction is on the rules of kinds. -/
theorem WellKinded.evaluate_replace (hσ : σ.StandsIn limit) (hnesting : ctx.nesting ≤ limit)
    {t : Term} (ht : t.WellKinded) :
    (t.replace σ).evaluate evaluateFormula (ctx.replace σ) maxDepth depth =
      t.evaluate evaluateFormula ctx maxDepth depth := by
  induction ht generalizing depth with
  | constant | attributeRef | macroRef => rfl
  | unary _ _ ih => rw [replace, evaluate, evaluate, ih]
  | arithmetic _ _ _ ihx ihy => rw [replace, evaluate, evaluate, ihx, ihy]
  | comparison _ _ _ ihx ihy => rw [replace, evaluate, evaluate, ihx, ihy]
  | logical _ _ _ _ ihx ihy => rw [replace, evaluate, evaluate, ihx, ihy]
  | conditional _ _ _ _ ihc iht ihe => rw [replace, evaluate, evaluate, ihc, iht, ihe]
  | @call k span f args hcount hplaced hargs ih =>
      rw [replace, evaluate, evaluate, replaceAll_eq_map,
        evaluateAll_congr fun arg harg => ih arg harg]
      refine congrArg _ (funext fun _ => Evaluation.bind_congr_of_returns fun values hvalues => ?_)
      have hcall : (Term.call k span f args).WellKinded := .call hcount hplaced hargs
      have haccepts := hcall.accepts_of_returns hvalues
      have hbody := hσ.body f (ctx.call evaluateFormula f k) values haccepts hnesting
      rw [apply, apply, ← hbody]
      rfl

end Evaluating

end Term

namespace Formula

variable {ctx : Context} {limit : Nat}

theorem compileWith_replace (hσ : σ.StandsIn limit) (hnesting : ctx.nesting ≤ limit)
    (formulaKind : String → Except KindFault Kind) (source : String) :
    compileWith formulaKind (ctx.replace σ) source =
      (compileWith formulaKind ctx source).map (replace σ) := by
  unfold compileWith
  rw [show (ctx.replace σ).options = ctx.options from rfl]
  split
  · rfl
  · rw [Term.ofTree_replace hσ hnesting]
    cases Term.ofTree formulaKind ctx source _ <;> rfl

theorem nestedKind_replace (hσ : σ.StandsIn limit) {levels : Nat}
    (hlevels : ctx.nesting + levels ≤ limit) :
    nestedKind levels (ctx.replace σ) = nestedKind levels ctx := by
  induction levels generalizing ctx with
  | zero => rfl
  | succ levels ih =>
      funext text
      have hnested : ctx.nested.nesting + levels ≤ limit := by
        show ctx.nesting + 1 + levels ≤ limit
        omega
      rw [nestedKind, nestedKind, show (ctx.replace σ).nested = ctx.nested.replace σ from rfl,
        ih hnested, compileWith_replace hσ (by omega)]
      cases hf : compileWith (nestedKind levels ctx.nested) ctx.nested text with
      | error e => rfl
      | ok f => exact congrArg Except.ok (Term.kind_replace f.term)

theorem runWith_replace (hσ : σ.StandsIn limit) (hnesting : ctx.nesting ≤ limit) {f : Formula}
    (hf : f.term.WellKinded) (evaluateFormula : String → Evaluation EvaluationFault Value)
    (maxDepth : Nat) :
    (f.replace σ).runWith evaluateFormula (ctx.replace σ) maxDepth =
      f.runWith evaluateFormula ctx maxDepth := by
  rw [runWith, runWith]
  exact congrArg _ (hf.evaluate_replace hσ hnesting)

theorem nestedValue_replace (hσ : σ.StandsIn limit) {levels : Nat}
    (hlevels : ctx.nesting + levels ≤ limit) :
    nestedValue levels (ctx.replace σ) = nestedValue levels ctx := by
  induction levels generalizing ctx with
  | zero => rfl
  | succ levels ih =>
      funext text
      have hnested : ctx.nested.nesting + levels ≤ limit := by
        show ctx.nesting + 1 + levels ≤ limit
        omega
      rw [nestedValue, nestedValue, show (ctx.replace σ).nested = ctx.nested.replace σ from rfl,
        ih hnested, nestedKind_replace hσ hnested, compileWith_replace hσ (by omega)]
      cases hf : compileWith (nestedKind levels ctx.nested) ctx.nested text with
      | error e => rfl
      | ok f =>
          obtain ⟨tree, -, hterm, -⟩ := compileWith_eq_ok hf
          have hrun := runWith_replace hσ (show ctx.nested.nesting ≤ limit by omega)
            (Term.wellKinded_ofTree hterm) (nestedValue levels ctx.nested) ctx.options.maxDepth
          exact congrArg (Evaluation.mapError fun e => EvaluationFault.nested text (.failed e)) hrun

theorem nesting_add_levels_le (hnesting : ctx.nesting ≤ limit)
    (hlimit : ctx.options.maxNesting ≤ limit) : ctx.nesting + ctx.levels ≤ limit := by
  rw [Context.levels]
  omega

/-- Neither compiling nor running notices that functions were replaced which are only called
by the convention. -/
theorem compile_replace (hσ : σ.StandsIn limit) (hnesting : ctx.nesting ≤ limit)
    (hlimit : ctx.options.maxNesting ≤ limit) (source : String) :
    compile (ctx.replace σ) source = (compile ctx source).map (replace σ) := by
  have hlevels := nesting_add_levels_le hnesting hlimit
  rw [compile, compile, show (ctx.replace σ).levels = ctx.levels from rfl,
    nestedKind_replace hσ hlevels, compileWith_replace hσ hnesting]

theorem runWithin_replace (hσ : σ.StandsIn limit) (hnesting : ctx.nesting ≤ limit)
    (hlimit : ctx.options.maxNesting ≤ limit) {f : Formula} (hf : f.term.WellKinded)
    (maxDepth : Nat) :
    (f.replace σ).runWithin maxDepth (ctx.replace σ) = f.runWithin maxDepth ctx := by
  have hlevels := nesting_add_levels_le hnesting hlimit
  rw [runWithin, runWithin, show (ctx.replace σ).levels = ctx.levels from rfl,
    nestedValue_replace hσ hlevels, runWith_replace hσ hnesting hf]

theorem evaluate_replace (hσ : σ.StandsIn limit) (hnesting : ctx.nesting ≤ limit)
    (hlimit : ctx.options.maxNesting ≤ limit) (source : String) :
    evaluate (ctx.replace σ) source = evaluate ctx source := by
  rw [evaluate, evaluate, compile_replace hσ hnesting hlimit]
  cases hf : compile ctx source with
  | error e => rfl
  | ok f =>
      have hrun := runWithin_replace hσ hnesting hlimit (wellKinded_of_compile hf)
        ctx.options.maxDepth
      exact congrArg (Evaluation.mapError Error.failed) hrun

/-- Every call that takes place obeys the convention.  The values of the arguments of a call
are as many as its function takes and of kinds that it accepts where they stand; and if all
bodies and all rules for kinds are replaced by others that agree with them on such arguments,
then every text compiles as before, to the same term with the functions replaced, and the
formula runs as before on every row.  As the functions of the catalog look at no argument
beyond those that their signature takes, none of them ever reads one that is not there. -/
theorem calls_obey_convention {ctx : Context} {source : String} {f : Formula}
    (h : compile ctx source = .ok f) :
    (∀ k span g args, f.term.HasNode (.call k span g args) →
      ∀ evaluateFormula later maxDepth depth values,
        (Term.evaluateAll evaluateFormula later maxDepth depth args).Returns values →
        g.signature.Accepts (values.map Value.kind)) ∧
    (∀ σ : Replacement, (∀ limit, σ.StandsIn limit) →
      (∀ text, compile (ctx.replace σ) text = (compile ctx text).map (replace σ)) ∧
      ∀ later maxDepth,
        (f.replace σ).runWithin maxDepth (later.replace σ) = f.runWithin maxDepth later) ∧
    ∀ g ∈ Catalog.functions, g.ReadsWithin := by
  have hterm := wellKinded_of_compile h
  refine ⟨?arguments, ?replacing, fun g hg => Catalog.readsWithin_of_mem hg⟩
  case arguments =>
    intro k span g args hnode evaluateFormula later maxDepth depth values hvalues
    exact (hterm.of_hasNode hnode).accepts_of_returns hvalues
  case replacing =>
    intro σ hσ
    constructor
    · intro text
      exact compile_replace (hσ (max ctx.nesting ctx.options.maxNesting)) (Nat.le_max_left _ _)
        (Nat.le_max_right _ _) text
    · intro later maxDepth
      exact runWithin_replace (hσ (max later.nesting later.options.maxNesting))
        (Nat.le_max_left _ _) (Nat.le_max_right _ _) hterm maxDepth

/-- Both arguments of the conjunction are read without asking. -/
theorem calls_obey_convention_of_conjunction :
    ∃ f k span g args,
      compile (({} : Engine).context ⟨0, 0⟩ (Row.ofList [("a", .integer 2)]))
        "and(a, missing(a))" = .ok f ∧ f.term = .call k span g args ∧ g.name = "and" ∧
      (∀ evaluateFormula later maxDepth depth values,
        (Term.evaluateAll evaluateFormula later maxDepth depth args).Returns values →
        g.signature.Accepts (values.map Value.kind)) ∧
      ∀ later, (f.replace .checked).run (later.replace .checked) = f.run later := by
  have hcheck : ((compile (({} : Engine).context ⟨0, 0⟩ (Row.ofList [("a", .integer 2)]))
      "and(a, missing(a))").toOption.any fun f =>
        f.term.function?.any fun g => g.name == "and") = true := by
    decide +kernel
  obtain ⟨f, hf, hcall⟩ := (Option.any_eq_true _ _).1 hcheck
  have hcompile := toOption_eq_some_iff.1 hf
  obtain ⟨hvalues, hreplaced, -⟩ := calls_obey_convention hcompile
  obtain ⟨g, hg, hname⟩ := (Option.any_eq_true _ _).1 hcall
  obtain ⟨k, span, args, hterm⟩ := Term.eq_call_of_function? hg
  refine ⟨f, k, span, g, args, hcompile, hterm, eq_of_beq hname, ?_, ?_⟩
  · exact hvalues k span g args (hterm ▸ .self)
  · exact fun later => (hreplaced .checked Replacement.checked_standsIn).2 later _

end Formula

end RowFormula
