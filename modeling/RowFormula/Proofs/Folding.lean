/-
# Folding constants

Resolving a tree replaces operators on constants by their values.  Here the same is said in
two steps: `ofTreeUnfolded` keeps every operator that it resolves, and `folded` replaces
operators from the leaves upwards.  Only the static decisions, which are the choices of
conditionals and the kinds of calls, look at folded terms.  The two steps give what
resolving gives, and the second of them does not change what a term evaluates to: the
evaluator and the folding agree on every operator.
-/

import RowFormula.Proofs.WellKinded

namespace RowFormula

namespace Term

mutual

/-- Replaces operators on constants by their values, from the leaves upwards. -/
def folded : Term → Term
  | unary k span op x => (unary k span op (folded x)).fold
  | arithmetic k span op x y => (arithmetic k span op (folded x) (folded y)).fold
  | comparison span op x y => (comparison span op (folded x) (folded y)).fold
  | logical span op x y => (logical span op (folded x) (folded y)).fold
  | conditional k span c t e => conditional k span (folded c) (folded t) (folded e)
  | call k span f args => call k span f (foldedAll args)
  | t => t

/-- Replaces operators on constants in each term of a list. -/
def foldedAll : List Term → List Term
  | [] => []
  | t :: ts => folded t :: foldedAll ts

end

@[simp]
theorem foldedAll_eq_map (ts : List Term) : foldedAll ts = ts.map folded := by
  induction ts with
  | nil => rfl
  | cons t ts ih => rw [foldedAll, ih, List.map_cons]

theorem span_fold (t : Term) : t.fold.span = t.span := by
  unfold fold
  split <;> rfl

@[simp]
theorem kind_folded (t : Term) : t.folded.kind = t.kind := by
  cases t with
  | unary | arithmetic | comparison | logical => exact kind_fold _
  | _ => rfl

@[simp]
theorem span_folded (t : Term) : t.folded.span = t.span := by
  cases t with
  | unary | arithmetic | comparison | logical => exact span_fold _
  | _ => rfl

section Resolving

variable (formulaKind : String → Except KindFault Kind) (ctx : Context) (source : String)

mutual

/-- Resolves a tree and keeps all operators.  Static decisions are those of the folded
terms. -/
def ofTreeUnfolded : Tree → Analysis Term
  | .integer x span => pure (ofValue span (.integer x))
  | .float x span => pure (ofValue span (.double x))
  | .text s span => pure (ofValue span (.ofString s))
  | .ident name span => ofIdent ctx source name span
  | .attributeRef name span => ofAttribute ctx source (.unknownAttribute name) name span
  | .macroRef name span => pure (macroRef span name)
  | .unary op span operand => do
    let x ← ofTreeUnfolded operand
    ofUnary source op span x
  | .arithmetic op span left right => do
    let x ← ofTreeUnfolded left
    let y ← ofTreeUnfolded right
    ofArithmetic source op span x y
  | .comparison op span left right => do
    let x ← ofTreeUnfolded left
    let y ← ofTreeUnfolded right
    ofComparison source op span x y
  | .logical op span left right => do
    let x ← ofTreeUnfolded left
    let y ← ofTreeUnfolded right
    ofLogical source op span x y
  | .call name span args =>
    if name = conditionalName then
      match args with
      | [condition, whenTrue, whenFalse] => do
        let c ← ofTreeUnfolded condition
        if !c.kind.isTruthy then fail source (.conditionMismatch c.kind) c.span
        else
          match selected? c.folded with
          | some true => ofTreeUnfolded whenTrue
          | some false => ofTreeUnfolded whenFalse
          | none => do
            let t ← ofTreeUnfolded whenTrue
            let e ← ofTreeUnfolded whenFalse
            let k := t.kind.unify e.kind
            match c.folded.constant? with
            | some _ => pure (constant k span (Value.missing k))
            | none => pure (conditional k span c t e)
      | args => fail source (.arityMismatch name (.exact 3) args.length) span
    else do
      let f ← functionFor ctx source name args.length span
      let ts ← ofTreesUnfolded args
      let k ← callKind formulaKind ctx source name span f (ts.map folded)
      pure (call k span f ts)
  termination_by structural t => t

/-- Resolves trees from first to last and keeps all operators. -/
def ofTreesUnfolded : List Tree → Analysis (List Term)
  | [] => pure []
  | t :: ts => do
    let x ← ofTreeUnfolded t
    let xs ← ofTreesUnfolded ts
    pure (x :: xs)
  termination_by structural ts => ts

end

section Operators

variable {source : String} {span : Span}

theorem ofUnary_folded (op : UnaryOp) (x : Term) :
    (ofUnary source op span x.folded >>= fun node => pure node.fold) =
      (ofUnary source op span x).map folded := by
  unfold ofUnary
  rw [kind_folded]
  cases unaryKind? op x.kind <;> rfl

theorem ofArithmetic_folded (op : ArithmeticOp) (x y : Term) :
    (ofArithmetic source op span x.folded y.folded >>= fun node => pure node.fold) =
      (ofArithmetic source op span x y).map folded := by
  unfold ofArithmetic
  rw [kind_folded, kind_folded]
  cases arithmeticKind? op x.kind y.kind <;> rfl

theorem ofComparison_folded (op : ComparisonOp) (x y : Term) :
    (ofComparison source op span x.folded y.folded >>= fun node => pure node.fold) =
      (ofComparison source op span x y).map folded := by
  unfold ofComparison
  rw [kind_folded, kind_folded]
  split <;> rfl

theorem ofLogical_folded (op : LogicalOp) (x y : Term) :
    (ofLogical source op span x.folded y.folded >>= fun node => pure node.fold) =
      (ofLogical source op span x y).map folded := by
  unfold ofLogical
  rw [kind_folded, kind_folded]
  split <;> rfl

end Operators

variable {formulaKind ctx source}

theorem ofTrees_eq_map_folded {trees : List Tree}
    (h : ∀ tree ∈ trees, ofTree formulaKind ctx source tree =
      (ofTreeUnfolded formulaKind ctx source tree).map folded) :
    ofTrees formulaKind ctx source trees =
      (ofTreesUnfolded formulaKind ctx source trees).map (List.map folded) := by
  induction trees with
  | nil => rfl
  | cons tree trees ih =>
      rw [ofTrees, ofTreesUnfolded, h tree List.mem_cons_self,
        ih fun t ht => h t (List.mem_cons_of_mem _ ht)]
      exact map_bind_eq_map fun x => map_bind_eq_map fun xs => rfl

theorem ofTreeUnfolded_call {name : String} {span : Span} {args : List Tree}
    (hname : name ≠ conditionalName) :
    ofTreeUnfolded formulaKind ctx source (.call name span args) = (do
      let f ← functionFor ctx source name args.length span
      let ts ← ofTreesUnfolded formulaKind ctx source args
      let k ← callKind formulaKind ctx source name span f (ts.map folded)
      pure (call k span f ts)) := by
  unfold ofTreeUnfolded
  exact if_neg hname

/-- Both ways of resolving a conditional take the branch that the folded condition
selects. -/
theorem ofTree_conditional_eq_map_folded {span : Span} {condition whenTrue whenFalse : Tree}
    (hcondition : ofTree formulaKind ctx source condition =
      (ofTreeUnfolded formulaKind ctx source condition).map folded)
    (htrue : ofTree formulaKind ctx source whenTrue =
      (ofTreeUnfolded formulaKind ctx source whenTrue).map folded)
    (hfalse : ofTree formulaKind ctx source whenFalse =
      (ofTreeUnfolded formulaKind ctx source whenFalse).map folded) :
    ofTree formulaKind ctx source (.call conditionalName span [condition, whenTrue, whenFalse]) =
      (ofTreeUnfolded formulaKind ctx source
        (.call conditionalName span [condition, whenTrue, whenFalse])).map folded := by
  rw [ofTree, ofTreeUnfolded, if_pos rfl, if_pos rfl, hcondition, htrue, hfalse]
  refine map_bind_eq_map fun c => ?_
  rw [kind_folded, span_folded]
  by_cases htruthy : (!c.kind.isTruthy) = true
  · rw [if_pos htruthy, if_pos htruthy]
    rfl
  · rw [if_neg htruthy, if_neg htruthy]
    cases selected? c.folded with
    | some b => cases b <;> rfl
    | none =>
        refine map_bind_eq_map fun t => map_bind_eq_map fun e => ?_
        rw [ofConditional, kind_folded, kind_folded]
        cases c.folded.constant? <;> rfl

/-- Resolving a tree folds what resolving it without folding gives, and fails with the same
errors. -/
theorem ofTree_eq_map_folded (tree : Tree) :
    ofTree formulaKind ctx source tree =
      (ofTreeUnfolded formulaKind ctx source tree).map folded := by
  induction tree with
  | integer | float | text | macroRef => rfl
  | ident name span =>
      rw [ofTree, ofTreeUnfolded]
      cases h : ofIdent ctx source name span with
      | error => rfl
      | ok t => obtain ⟨v, -, rfl⟩ | ⟨k, -, rfl⟩ := ofIdent_eq_ok h <;> rfl
  | attributeRef name span =>
      rw [ofTree, ofTreeUnfolded]
      cases h : ofAttribute ctx source (.unknownAttribute name) name span with
      | error => rfl
      | ok t =>
          obtain ⟨k, -, rfl⟩ := ofAttribute_eq_ok h
          rfl
  | unary op span operand ih =>
      rw [ofTree, ofTreeUnfolded, ih]
      exact map_bind_eq_map fun x => ofUnary_folded op x
  | arithmetic op span left right ihl ihr =>
      rw [ofTree, ofTreeUnfolded, ihl, ihr]
      exact map_bind_eq_map fun x => map_bind_eq_map fun y => ofArithmetic_folded op x y
  | comparison op span left right ihl ihr =>
      rw [ofTree, ofTreeUnfolded, ihl, ihr]
      exact map_bind_eq_map fun x => map_bind_eq_map fun y => ofComparison_folded op x y
  | logical op span left right ihl ihr =>
      rw [ofTree, ofTreeUnfolded, ihl, ihr]
      exact map_bind_eq_map fun x => map_bind_eq_map fun y => ofLogical_folded op x y
  | call name span args ih =>
      by_cases hname : name = conditionalName
      · subst hname
        rcases args with _ | ⟨condition, _ | ⟨whenTrue, _ | ⟨whenFalse, _ | ⟨_, _⟩⟩⟩⟩
        · rfl
        · rfl
        · rfl
        · exact ofTree_conditional_eq_map_folded (ih condition (by simp))
            (ih whenTrue (by simp)) (ih whenFalse (by simp))
        · rfl
      · rw [ofTree_call hname, ofTreeUnfolded_call hname, ofTrees_eq_map_folded ih]
        cases functionFor ctx source name args.length span with
        | error => rfl
        | ok f =>
            refine map_bind_eq_map fun ts => ?_
            rw [ofCall, ← foldedAll_eq_map]
            cases callKind formulaKind ctx source name span f (foldedAll ts) <;> rfl

end Resolving

section Evaluating

variable {evaluateFormula : String → Evaluation EvaluationFault Value} {ctx : Context}
variable {maxDepth depth : Nat}

theorem eq_constant_of_constant? {t : Term} {v : Value} (h : t.constant? = some v) :
    ∃ k span, t = constant k span v := by
  cases t with
  | constant k span w =>
      cases h
      exact ⟨k, span, rfl⟩
  | _ => cases h

theorem guardDepth_of_lt {span : Span} (h : depth < maxDepth) :
    guardDepth maxDepth depth span = pure () :=
  if_neg (Nat.not_le.2 h)

theorem evaluate_constant {k : Kind} {span : Span} {v : Value} (h : depth < maxDepth) :
    (constant k span v).evaluate evaluateFormula ctx maxDepth depth = pure v := by
  rw [evaluate, guardDepth_of_lt h, pure_bind]

/-- The evaluator gives a constant what folding it as an operand assumes. -/
theorem evaluate_of_constant? {t : Term} {v : Value} (ht : t.constant? = some v)
    (h : depth < maxDepth) : t.evaluate evaluateFormula ctx maxDepth depth = pure v := by
  obtain ⟨k, span, rfl⟩ := eq_constant_of_constant? ht
  exact evaluate_constant h

/-- An operator on constants evaluates to the value that replaces it. -/
theorem evaluate_of_folded? {t : Term} {v : Value} (ht : t.folded? = some v)
    (h : depth + 1 < maxDepth) : t.evaluate evaluateFormula ctx maxDepth depth = pure v := by
  have hdepth : depth < maxDepth := Nat.lt_of_succ_lt h
  cases t with
  | unary k span op x =>
      obtain ⟨a, ha, rfl⟩ := folded?_unary.1 ht
      rw [evaluate, guardDepth_of_lt hdepth, evaluate_of_constant? ha h, pure_bind, pure_bind]
  | arithmetic k span op x y =>
      obtain ⟨a, ha, b, hb, rfl⟩ := folded?_arithmetic.1 ht
      rw [evaluate, guardDepth_of_lt hdepth, evaluate_of_constant? ha h,
        evaluate_of_constant? hb h, pure_bind, pure_bind, pure_bind]
  | comparison span op x y =>
      obtain ⟨a, ha, b, hb, rfl⟩ := folded?_comparison.1 ht
      rw [evaluate, guardDepth_of_lt hdepth, evaluate_of_constant? ha h,
        evaluate_of_constant? hb h, pure_bind, pure_bind, pure_bind]
  | logical span op x y =>
      obtain ⟨a, ha, b, hb, rfl⟩ := folded?_logical.1 ht
      rw [evaluate, guardDepth_of_lt hdepth, evaluate_of_constant? ha h,
        evaluate_of_constant? hb h, pure_bind, pure_bind, pure_bind]
  | _ => cases ht

theorem evaluate_fold (t : Term) (h : depth + 1 < maxDepth) :
    t.fold.evaluate evaluateFormula ctx maxDepth depth =
      t.evaluate evaluateFormula ctx maxDepth depth := by
  unfold fold
  split
  · rename_i v hv
    rw [evaluate_constant (Nat.lt_of_succ_lt h), evaluate_of_folded? hv h]
  · rfl

theorem height_pos (t : Term) : 0 < t.height := by
  cases t <;> simp [height]

theorem height_le_heights {t : Term} {ts : List Term} (h : t ∈ ts) :
    t.height ≤ heights ts := by
  induction ts with
  | nil => cases h
  | cons u us ih =>
      rw [heights]
      rcases List.mem_cons.1 h with rfl | h
      · exact Nat.le_max_left _ _
      · exact Nat.le_trans (ih h) (Nat.le_max_right _ _)

theorem evaluateAll_congr {evaluateFormula' : String → Evaluation EvaluationFault Value}
    {other : Context} {maxDepth' depth' : Nat} {ts : List Term} {f : Term → Term}
    (h : ∀ t ∈ ts, (f t).evaluate evaluateFormula' other maxDepth' depth' =
      t.evaluate evaluateFormula ctx maxDepth depth) :
    evaluateAll evaluateFormula' other maxDepth' depth' (ts.map f) =
      evaluateAll evaluateFormula ctx maxDepth depth ts := by
  induction ts with
  | nil => rfl
  | cons t ts ih =>
      rw [List.map_cons, evaluateAll, evaluateAll, h t List.mem_cons_self,
        ih fun u hu => h u (List.mem_cons_of_mem _ hu)]

/-- Terms that evaluate alike one by one evaluate alike in a list. -/
theorem evaluateAll_eq {evaluateFormula' : String → Evaluation EvaluationFault Value}
    {other : Context} {maxDepth' depth' : Nat} {ts : List Term}
    (h : ∀ t ∈ ts, t.evaluate evaluateFormula' other maxDepth' depth' =
      t.evaluate evaluateFormula ctx maxDepth depth) :
    evaluateAll evaluateFormula' other maxDepth' depth' ts =
      evaluateAll evaluateFormula ctx maxDepth depth ts := by
  rw [← evaluateAll_congr (f := id) h, List.map_id]

/-- Folding a term does not change its evaluation, provided that the limit on the depth
admits the whole term.  The induction is on the term: once the operands are known to
evaluate alike, folding the operator on top of them is one more step. -/
theorem evaluate_folded (t : Term) (h : depth + t.height ≤ maxDepth) :
    t.folded.evaluate evaluateFormula ctx maxDepth depth =
      t.evaluate evaluateFormula ctx maxDepth depth := by
  induction t generalizing depth with
  | constant | attributeRef | macroRef => rfl
  | unary k span op x ih =>
      rw [height] at h
      have hx := height_pos x
      rw [folded, evaluate_fold _ (by omega), evaluate, evaluate, ih (by omega)]
  | arithmetic k span op x y ihx ihy =>
      rw [height] at h
      have hx := height_pos x
      rw [folded, evaluate_fold _ (by omega), evaluate, evaluate, ihx (by omega),
        ihy (by omega)]
  | comparison span op x y ihx ihy =>
      rw [height] at h
      have hx := height_pos x
      rw [folded, evaluate_fold _ (by omega), evaluate, evaluate, ihx (by omega),
        ihy (by omega)]
  | logical span op x y ihx ihy =>
      rw [height] at h
      have hx := height_pos x
      rw [folded, evaluate_fold _ (by omega), evaluate, evaluate, ihx (by omega),
        ihy (by omega)]
  | conditional k span c x y ihc ihx ihy =>
      rw [height] at h
      rw [folded, evaluate, evaluate, ihc (by omega), ihx (by omega), ihy (by omega)]
  | call k span f args ih =>
      rw [height] at h
      rw [folded, foldedAll_eq_map, evaluate, evaluate]
      rw [evaluateAll_congr fun arg harg => ih arg harg ?_]
      have harg := height_le_heights harg
      omega

end Evaluating

end Term

namespace Formula

/-- Compiles a text and keeps all its operators. -/
def compileUnfolded (ctx : Context) (source : String) : Except Error Formula :=
  match Tree.parse ctx.options.maxParseDepth source with
  | .error e => .error (.unreadable e)
  | .ok tree =>
    match Term.ofTreeUnfolded (nestedKind ctx.levels ctx) ctx source tree with
    | .error e => .error (.illTyped e)
    | .ok term => .ok ⟨source, term⟩

/-- Folding constants cannot be observed when a formula runs: on every row, and whatever is
drawn at random, the formula and its unfolded form give the same value or the same error
and leave the same draws. -/
theorem run_unfolded {ctx : Context} {source : String} {f : Formula}
    (h : compile ctx source = .ok f) :
    ∃ u, compileUnfolded ctx source = .ok u ∧ u.term.folded = f.term ∧
      (∀ evaluateFormula later maxDepth, u.term.height ≤ maxDepth →
        u.term.evaluate evaluateFormula later maxDepth 0 =
          f.term.evaluate evaluateFormula later maxDepth 0) ∧
      ∀ later maxDepth, u.term.height ≤ maxDepth →
        u.runWithin maxDepth later = f.runWithin maxDepth later := by
  obtain ⟨tree, htree, hterm, hsource⟩ := compileWith_eq_ok h
  rw [Term.ofTree_eq_map_folded] at hterm
  cases hu : Term.ofTreeUnfolded (nestedKind ctx.levels ctx) ctx source tree with
  | error e =>
      rw [hu] at hterm
      cases hterm
  | ok u =>
      rw [hu] at hterm
      have hfolded : u.folded = f.term := Except.ok.inj hterm
      have heval : ∀ evaluateFormula later maxDepth, u.height ≤ maxDepth →
          u.evaluate evaluateFormula later maxDepth 0 =
            f.term.evaluate evaluateFormula later maxDepth 0 := by
        intro evaluateFormula later maxDepth hheight
        rw [← hfolded, Term.evaluate_folded u (by omega)]
      refine ⟨⟨source, u⟩, ?_, hfolded, heval, ?_⟩
      · simp only [compileUnfolded, htree, hu]
      · intro later maxDepth hheight
        simp only [runWithin, runWith, heval _ _ _ hheight, hsource]

/-- Folding goes all the way up here and decides the conditional. -/
theorem run_unfolded_of_static_choice :
    ∃ f u : Formula,
      compile { row := Row.ofList [("a", .double 1)] } "if(1 + 1 > 1, a + 2 * 3, 0)" = .ok f ∧
      f.term.height = 2 ∧ u.term.folded = f.term ∧ u.term.height = 3 ∧
      ∀ later, u.runWithin 3 later = f.runWithin 3 later := by
  have hcheck : ((compile { row := Row.ofList [("a", .double 1)] }
      "if(1 + 1 > 1, a + 2 * 3, 0)").toOption.any fun f => f.term.height = 2) = true := by
    decide +kernel
  have hunfolded : ((compileUnfolded { row := Row.ofList [("a", .double 1)] }
      "if(1 + 1 > 1, a + 2 * 3, 0)").toOption.map fun u => u.term.height) = some 3 := by
    decide +kernel
  obtain ⟨f, hf, hheight⟩ := (Option.any_eq_true _ _).1 hcheck
  have hcompile := toOption_eq_some_iff.1 hf
  obtain ⟨u, hu, hfolded, -, hrun⟩ := run_unfolded hcompile
  rw [hu] at hunfolded
  have hthree : u.term.height = 3 := Option.some.inj hunfolded
  exact ⟨f, u, hcompile, of_decide_eq_true hheight, hfolded, hthree,
    fun later => hrun later 3 (Nat.le_of_eq hthree)⟩

end Formula

end RowFormula
