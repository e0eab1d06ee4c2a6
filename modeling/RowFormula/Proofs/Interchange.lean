/-
# Texts that stand for one another

Where the limit on the depth admits a term, nothing of the limit is left in what the term evaluates
to.  `Term.unlimited` is that evaluation: it knows neither a limit nor a depth, so that terms of
different heights can be compared.  Two texts are interchangeable if they are resolved to terms of
one kind that evaluate alike, or are both refused; only the places of errors may differ.

The proofs that texts are interchangeable follow resolving: the steps that both texts have in common
are taken first (`Paired.bind`), and what is left are two nodes above the same operands.
-/

import RowFormula.Proofs.Meaning

namespace RowFormula

namespace Term

/-! ### Evaluation without a limit -/

section Evaluating

variable (evaluateFormula : String → Evaluation EvaluationFault Value) (ctx : Context)

mutual

/-- What a term evaluates to if no limit is reached. -/
def unlimited : Term → Run Value
  | constant _ _ value => pure value
  | attributeRef k span name => attributeValue ctx k span name
  | macroRef span name => macroValue ctx span name
  | unary _ _ op operand => do
    let x ← unlimited operand
    pure (Value.unary op x)
  | arithmetic k _ op left right => do
    let x ← unlimited left
    let y ← unlimited right
    pure (Value.arithmetic op k x y)
  | comparison _ op left right => do
    let x ← unlimited left
    let y ← unlimited right
    pure (Value.ofBool (Value.compare op x y))
  | logical _ op left right => do
    let x ← unlimited left
    let y ← unlimited right
    pure (Value.logical op x y)
  | conditional k span condition whenTrue whenFalse => do
    let c ← unlimited condition
    match c.truth? with
    | some true => do
      let v ← unlimited whenTrue
      conform k span v
    | some false => do
      let v ← unlimited whenFalse
      conform k span v
    | none => pure (Value.missing k)
  | call k span f args => do
    let values ← unlimitedAll args
    apply evaluateFormula ctx k span f values
  termination_by structural t => t

/-- What terms evaluate to, from first to last, if no limit is reached. -/
def unlimitedAll : List Term → Run (List Value)
  | [] => pure []
  | t :: ts => do
    let v ← unlimited t
    let vs ← unlimitedAll ts
    pure (v :: vs)
  termination_by structural ts => ts

end

variable {evaluateFormula ctx} {maxDepth maxDepth' depth depth' : Nat}

theorem evaluateAll_eq_unlimitedAll {ts : List Term}
    (h : ∀ t ∈ ts, t.evaluate evaluateFormula ctx maxDepth depth =
      t.unlimited evaluateFormula ctx) :
    evaluateAll evaluateFormula ctx maxDepth depth ts = unlimitedAll evaluateFormula ctx ts := by
  induction ts with
  | nil => rfl
  | cons t ts ih =>
      rw [evaluateAll, unlimitedAll, h t List.mem_cons_self,
        ih fun u hu => h u (List.mem_cons_of_mem _ hu)]

/-- No limit is reached that admits the height of the term. -/
theorem evaluate_eq_unlimited (t : Term) (h : depth + t.height ≤ maxDepth) :
    t.evaluate evaluateFormula ctx maxDepth depth = t.unlimited evaluateFormula ctx := by
  induction t generalizing depth with
  | constant | attributeRef | macroRef => rw [evaluate, guardDepth_of_lt h, unlimited, pure_bind]
  | unary k span op x ih =>
      rw [height] at h
      rw [evaluate, guardDepth_of_lt (by omega), unlimited, pure_bind, ih (by omega)]
  | arithmetic k span op x y ihx ihy =>
      rw [height] at h
      rw [evaluate, guardDepth_of_lt (by omega), unlimited, pure_bind, ihx (by omega),
        ihy (by omega)]
  | comparison span op x y ihx ihy =>
      rw [height] at h
      rw [evaluate, guardDepth_of_lt (by omega), unlimited, pure_bind, ihx (by omega),
        ihy (by omega)]
  | logical span op x y ihx ihy =>
      rw [height] at h
      rw [evaluate, guardDepth_of_lt (by omega), unlimited, pure_bind, ihx (by omega),
        ihy (by omega)]
  | conditional k span c x y ihc ihx ihy =>
      rw [height] at h
      rw [evaluate, guardDepth_of_lt (by omega), unlimited, pure_bind, ihc (by omega)]
      refine bind_congr fun v => ?_
      cases v.truth? with
      | none => rfl
      | some chosen =>
          cases chosen with
          | true => exact congrArg (· >>= fun w => conform k span w) (ihx (by omega))
          | false => exact congrArg (· >>= fun w => conform k span w) (ihy (by omega))
  | call k span f args ih =>
      rw [height] at h
      rw [evaluate, guardDepth_of_lt (by omega), unlimited, pure_bind,
        evaluateAll_eq_unlimitedAll fun arg harg => ih arg harg ?_]
      have := height_le_heights harg
      omega

/-- It makes no difference how deep a term is evaluated, and with which limit, as long as the limit
admits it. -/
theorem evaluate_of_height_le (t : Term) (h : depth + t.height ≤ maxDepth)
    (h' : depth' + t.height ≤ maxDepth') :
    t.evaluate evaluateFormula ctx maxDepth depth =
      t.evaluate evaluateFormula ctx maxDepth' depth' := by
  rw [evaluate_eq_unlimited t h, evaluate_eq_unlimited t h']

theorem height_fold_le (t : Term) : t.fold.height ≤ t.height := by
  unfold fold
  split
  · exact t.height_pos
  · exact Nat.le_refl _

theorem unlimited_fold (t : Term) :
    t.fold.unlimited evaluateFormula ctx = t.unlimited evaluateFormula ctx := by
  have hpos := t.height_pos
  have hfold := t.height_fold_le
  rw [← @evaluate_eq_unlimited _ _ (t.height + 1) 0 t (by omega),
    ← @evaluate_eq_unlimited _ _ (t.height + 1) 0 t.fold (by omega), evaluate_fold t (by omega)]

theorem unlimited_withoutSpans (t : Term) :
    (t.withoutSpans.unlimited evaluateFormula ctx).mapError EvaluationError.fault =
      (t.unlimited evaluateFormula ctx).mapError EvaluationError.fault := by
  rw [← @evaluate_eq_unlimited _ _ (t.withoutSpans.height + t.height) 0 t (by omega),
    ← @evaluate_eq_unlimited _ _ (t.withoutSpans.height + t.height) 0 t.withoutSpans (by omega),
    evaluate_withoutSpans]

end Evaluating

/-! ### Terms of the same value -/

/-- The terms have the same kind and evaluate alike, except for the places of errors. -/
structure SameValue (t u : Term) : Prop where
  kind : t.kind = u.kind
  value : ∀ evaluateFormula ctx,
    (t.unlimited evaluateFormula ctx).mapError EvaluationError.fault =
      (u.unlimited evaluateFormula ctx).mapError EvaluationError.fault

namespace SameValue

theorem trans {t u v : Term} (htu : t.SameValue u) (huv : u.SameValue v) : t.SameValue v :=
  ⟨htu.kind.trans huv.kind, fun evaluateFormula ctx =>
    (htu.value evaluateFormula ctx).trans (huv.value evaluateFormula ctx)⟩

theorem fold {t u : Term} (h : t.SameValue u) : t.SameValue u.fold :=
  h.trans ⟨(kind_fold u).symm, fun _ _ => by rw [unlimited_fold]⟩

theorem symm {t u : Term} (h : t.SameValue u) : u.SameValue t :=
  ⟨h.kind.symm, fun evaluateFormula ctx => (h.value evaluateFormula ctx).symm⟩

theorem withoutSpans (t : Term) : t.SameValue t.withoutSpans :=
  ⟨(kind_withoutSpans t).symm, fun _ _ => (unlimited_withoutSpans t).symm⟩

end SameValue

/-- Both fail, or both give terms of the same value. -/
inductive Paired : Analysis Term → Analysis Term → Prop
  | resolved {t u : Term} (h : t.SameValue u) : Paired (.ok t) (.ok u)
  | refused (e e' : TypeError) : Paired (.error e) (.error e')

namespace Paired

/-- A step that both have in common. -/
theorem bind {α : Type} {x : Analysis α} {f g : α → Analysis Term}
    (h : ∀ a, x = .ok a → Paired (f a) (g a)) : Paired (x >>= f) (x >>= g) := by
  cases x with
  | error e => exact .refused e e
  | ok a => exact h a rfl

theorem trans {x y z : Analysis Term} (hxy : Paired x y) (hyz : Paired y z) : Paired x z := by
  cases hxy with
  | resolved h =>
      cases hyz with
      | resolved h' => exact .resolved (h.trans h')
  | refused e e' =>
      cases hyz with
      | refused _ e'' => exact .refused e e''

theorem symm {x y : Analysis Term} (h : Paired x y) : Paired y x := by
  cases h with
  | resolved h => exact .resolved h.symm
  | refused e e' => exact .refused e' e

/-- Spans make no difference to the value of what is resolved. -/
theorem withoutSpans {formulaKind : String → Except KindFault Kind} {ctx : Context}
    {source : String} (t : Tree) :
    Paired (ofTree formulaKind ctx source t) (ofTree formulaKind ctx "" t.withoutSpans) := by
  rw [@ofTree_withoutSpans formulaKind ctx source]
  cases ofTree formulaKind ctx source t with
  | ok x => exact .resolved (.withoutSpans x)
  | error e =>
      obtain ⟨fault, _, _⟩ := e
      exact .refused _ _

end Paired

end Term

/-! ### Interchangeable texts -/

namespace Formula

/-- What became of two texts: formulas of one kind that, in every later context, run to the same
value or fail with the same fault under every limit that is admitted, with the same draws; or both
are refused. -/
inductive Interchangeable (Admits : Formula → Formula → Nat → Prop) :
    Except Error Formula → Except Error Formula → Prop
  | compiled {f g : Formula} (kind : f.kind = g.kind)
      (runs : ∀ later maxDepth, Admits f g maxDepth →
        (f.runWithin maxDepth later).mapError EvaluationError.fault =
          (g.runWithin maxDepth later).mapError EvaluationError.fault) :
      Interchangeable Admits (.ok f) (.ok g)
  | refused (e e' : Error) : Interchangeable Admits (.error e) (.error e')

theorem resolve_eq_ok {ctx : Context} {source : String} {t : Tree} {f : Formula}
    (h : resolve ctx source t = .ok f) :
    Term.ofTree (nestedKind ctx.levels ctx) ctx source t = .ok f.term := by
  unfold resolve at h
  split at h
  · cases h
  · rename_i x hx
    cases h
    exact hx

/-- The limit admits the heights of both formulas. -/
def Admitted (f g : Formula) (maxDepth : Nat) : Prop :=
  f.term.height ≤ maxDepth ∧ g.term.height ≤ maxDepth

variable {ctx : Context} {source other : String} {t u : Tree}

theorem runWithin_eq_unlimited {f : Formula} {maxDepth : Nat} (h : f.term.height ≤ maxDepth) :
    (f.runWithin maxDepth ctx).mapError EvaluationError.fault =
      (f.term.unlimited (nestedValue ctx.levels ctx) ctx).mapError EvaluationError.fault := by
  rw [runWithin_fault, Term.evaluate_eq_unlimited f.term (by omega)]

/-- A text compiles if its tree is resolved apart from spans. -/
theorem exists_compile_of_ofTree {x : Term}
    (ht : Tree.parse ctx.options.maxParseDepth source = .ok t)
    (hx : Term.ofTree (nestedKind ctx.levels ctx) ctx "" t.withoutSpans = .ok x) :
    ∃ f, compile ctx source = .ok f ∧ f.term.SameValue x := by
  have hpaired := @Term.Paired.withoutSpans (nestedKind ctx.levels ctx) ctx source t
  rw [hx] at hpaired
  rw [compile_of_parse ht, resolve]
  generalize Term.ofTree (nestedKind ctx.levels ctx) ctx source t = y at hpaired ⊢
  cases hpaired with
  | resolved h => exact ⟨_, rfl, h⟩

/-- Texts are interchangeable if their trees, apart from spans, are resolved to terms of the same
value. -/
theorem interchangeable_of_paired (ht : Tree.parse ctx.options.maxParseDepth source = .ok t)
    (hu : Tree.parse ctx.options.maxParseDepth other = .ok u)
    (h : Term.Paired (Term.ofTree (nestedKind ctx.levels ctx) ctx "" t.withoutSpans)
      (Term.ofTree (nestedKind ctx.levels ctx) ctx "" u.withoutSpans)) :
    Interchangeable Admitted (compile ctx source) (compile ctx other) := by
  rw [compile_of_parse ht, compile_of_parse hu, resolve, resolve]
  replace h := (@Term.Paired.withoutSpans _ ctx source t).trans
    (h.trans (@Term.Paired.withoutSpans _ ctx other u).symm)
  generalize Term.ofTree (nestedKind ctx.levels ctx) ctx source t = x at h ⊢
  generalize Term.ofTree (nestedKind ctx.levels ctx) ctx other u = y at h ⊢
  cases h with
  | refused => exact .refused _ _
  | resolved h =>
      refine .compiled h.kind fun later maxDepth hadmitted => ?_
      rw [runWithin_eq_unlimited hadmitted.1, runWithin_eq_unlimited hadmitted.2]
      exact h.value _ _

end Formula

end RowFormula
