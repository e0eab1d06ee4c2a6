/-
# Well-kinded terms

The rules that the kinds in a term obey, stated without regard to how the term came about.
Resolving a tree only ever gives well-kinded terms: folding keeps the kind of the operator
that it replaces, because every operation on values has a result of that kind.
-/

import RowFormula.Proofs.Evaluation
import RowFormula.Formula

namespace RowFormula

theorem Kind.isNumeric_promote (kinds : List Kind) : (promote kinds).isNumeric = true := by
  unfold promote
  split <;> rfl

namespace Value

theorem kind_unary {op : UnaryOp} {v : Value} {k : Kind}
    (h : Term.unaryKind? op v.kind = some k) : (Value.unary op v).kind = k := by
  cases op with
  | neg =>
      simp only [Term.unaryKind?] at h
      split at h
      · cases h
        exact kind_number (by assumption) _
      · cases h
  | pos =>
      simp only [Term.unaryKind?] at h
      split at h
      · exact Option.some.inj h
      · cases h
  | not =>
      simp only [Term.unaryKind?] at h
      split at h
      · cases h
        simp only [Value.unary, logicalNot]
        split <;> rfl
      · cases h

theorem kind_concat (v w : Value) : (concat v w).kind = .string := by
  unfold concat
  split <;> rfl

theorem kind_arithmetic {op : ArithmeticOp} {a b k : Kind}
    (h : Term.arithmeticKind? op a b = some k) (v w : Value) :
    (Value.arithmetic op k v w).kind = k := by
  by_cases hk : k = .string
  · subst hk
    exact kind_concat v w
  · have hnumeric : k.isNumeric = true := by
      simp only [Term.arithmeticKind?] at h
      split at h
      · cases h
        exact absurd rfl hk
      · split at h
        · cases h
          split
          · rfl
          · exact Kind.isNumeric_promote _
        · cases h
    rw [Value.arithmetic, if_neg hk]
    exact kind_number hnumeric _

theorem kind_logical (op : LogicalOp) (v w : Value) : (Value.logical op v w).kind = .boolean := by
  cases op
  · simp only [Value.logical, logicalAnd]
    split <;> rfl
  · simp only [Value.logical, logicalOr]
    split <;> rfl

end Value

namespace Term

/-- The rules of kinds.  Of a constant they ask that it holds a value of its kind, of an
operator that its operands can stand there, and of a call that its function accepts the
arguments. -/
inductive WellKinded : Term → Prop
  | constant {k : Kind} {span : Span} {v : Value} :
      v.kind = k → WellKinded (.constant k span v)
  | attributeRef {k : Kind} {span : Span} {name : String} :
      WellKinded (.attributeRef k span name)
  | macroRef {span : Span} {name : String} : WellKinded (.macroRef span name)
  | unary {k : Kind} {span : Span} {op : UnaryOp} {x : Term} :
      unaryKind? op x.kind = some k → WellKinded x → WellKinded (.unary k span op x)
  | arithmetic {k : Kind} {span : Span} {op : ArithmeticOp} {x y : Term} :
      arithmeticKind? op x.kind y.kind = some k → WellKinded x → WellKinded y →
      WellKinded (.arithmetic k span op x y)
  | comparison {span : Span} {op : ComparisonOp} {x y : Term} :
      comparable op x.kind y.kind = true → WellKinded x → WellKinded y →
      WellKinded (.comparison span op x y)
  | logical {span : Span} {op : LogicalOp} {x y : Term} :
      x.kind.isTruthy = true → y.kind.isTruthy = true → WellKinded x → WellKinded y →
      WellKinded (.logical span op x y)
  | conditional {span : Span} {c t e : Term} :
      c.kind.isTruthy = true → WellKinded c → WellKinded t → WellKinded e →
      WellKinded (.conditional (t.kind.unify e.kind) span c t e)
  | call {k : Kind} {span : Span} {f : Function} {args : List Term} :
      f.signature.arity.accepts args.length = true → misplaced? f.signature 0 args = none →
      (∀ arg ∈ args, WellKinded arg) → WellKinded (.call k span f args)

theorem WellKinded.kind_constant {t : Term} {v : Value} (ht : t.WellKinded)
    (hv : t.constant? = some v) : v.kind = t.kind := by
  cases ht with
  | constant h =>
      cases hv
      exact h
  | _ => cases hv

section Folding

variable {k : Kind} {span : Span} {x y : Term} {v : Value}

@[simp]
theorem folded?_unary {op : UnaryOp} :
    (unary k span op x).folded? = some v ↔
      ∃ a, x.constant? = some a ∧ Value.unary op a = v := by
  simp [folded?, Option.bind_eq_some_iff]

@[simp]
theorem folded?_arithmetic {op : ArithmeticOp} :
    (arithmetic k span op x y).folded? = some v ↔
      ∃ a, x.constant? = some a ∧ ∃ b, y.constant? = some b ∧ Value.arithmetic op k a b = v := by
  simp [folded?, Option.bind_eq_some_iff]

@[simp]
theorem folded?_comparison {op : ComparisonOp} :
    (comparison span op x y).folded? = some v ↔
      ∃ a, x.constant? = some a ∧ ∃ b, y.constant? = some b ∧
        Value.ofBool (Value.compare op a b) = v := by
  simp [folded?, Option.bind_eq_some_iff]

@[simp]
theorem folded?_logical {op : LogicalOp} :
    (logical span op x y).folded? = some v ↔
      ∃ a, x.constant? = some a ∧ ∃ b, y.constant? = some b ∧ Value.logical op a b = v := by
  simp [folded?, Option.bind_eq_some_iff]

end Folding

/-- The value of a folded operator has the kind of the operator. -/
theorem WellKinded.kind_folded {t : Term} {v : Value} (ht : t.WellKinded)
    (hv : t.folded? = some v) : v.kind = t.kind := by
  cases ht with
  | constant | attributeRef | macroRef | conditional | call => cases hv
  | unary hk hx =>
      obtain ⟨a, ha, rfl⟩ := folded?_unary.1 hv
      rw [← hx.kind_constant ha] at hk
      exact Value.kind_unary hk
  | arithmetic hk =>
      obtain ⟨_, -, _, -, rfl⟩ := folded?_arithmetic.1 hv
      exact Value.kind_arithmetic hk _ _
  | comparison =>
      obtain ⟨_, -, _, -, rfl⟩ := folded?_comparison.1 hv
      rfl
  | logical =>
      obtain ⟨_, -, _, -, rfl⟩ := folded?_logical.1 hv
      exact Value.kind_logical _ _ _

theorem kind_fold (t : Term) : t.fold.kind = t.kind := by
  unfold fold
  split <;> rfl

theorem WellKinded.fold {t : Term} (ht : t.WellKinded) : t.fold.WellKinded := by
  unfold Term.fold
  split
  · exact .constant (ht.kind_folded (by assumption))
  · exact ht

section Resolving

variable {formulaKind : String → Except KindFault Kind} {ctx : Context} {source : String}
variable {span : Span} {name : String} {x y t : Term}

theorem ofAttribute_eq_ok {unknown : TypeFault}
    (h : ofAttribute ctx source unknown name span = .ok t) :
    ∃ k, ctx.row.kind? name = some k ∧ t = attributeRef k span name := by
  unfold ofAttribute at h
  split at h
  · cases h
    exact ⟨_, by assumption, rfl⟩
  · cases h

theorem ofIdent_eq_ok (h : ofIdent ctx source name span = .ok t) :
    (∃ v, ctx.constants.get? name = some v ∧ t = ofValue span v) ∨
      ∃ k, ctx.row.kind? name = some k ∧ t = attributeRef k span name := by
  unfold ofIdent at h
  split at h
  · cases h
    exact .inl ⟨_, by assumption, rfl⟩
  · exact .inr (ofAttribute_eq_ok h)

theorem ofUnary_eq_ok {op : UnaryOp} (h : ofUnary source op span x = .ok t) :
    ∃ k, unaryKind? op x.kind = some k ∧ t = unary k span op x := by
  unfold ofUnary at h
  split at h
  · cases h
    exact ⟨_, by assumption, rfl⟩
  · cases h

theorem ofArithmetic_eq_ok {op : ArithmeticOp} (h : ofArithmetic source op span x y = .ok t) :
    ∃ k, arithmeticKind? op x.kind y.kind = some k ∧ t = arithmetic k span op x y := by
  unfold ofArithmetic at h
  split at h
  · cases h
    exact ⟨_, by assumption, rfl⟩
  · cases h

theorem ofComparison_eq_ok {op : ComparisonOp} (h : ofComparison source op span x y = .ok t) :
    comparable op x.kind y.kind = true ∧ t = comparison span op x y := by
  unfold ofComparison at h
  split at h
  · cases h
    exact ⟨by assumption, rfl⟩
  · cases h

theorem ofLogical_eq_ok {op : LogicalOp} (h : ofLogical source op span x y = .ok t) :
    x.kind.isTruthy = true ∧ y.kind.isTruthy = true ∧ t = logical span op x y := by
  unfold ofLogical at h
  split at h
  · rename_i htruthy
    cases h
    rw [Bool.and_eq_true] at htruthy
    exact ⟨htruthy.1, htruthy.2, rfl⟩
  · cases h

theorem functionFor_eq_ok {count : Nat} {f : Function}
    (h : functionFor ctx source name count span = .ok f) :
    ctx.functions.get? name = some f ∧ f.signature.arity.accepts count = true := by
  unfold functionFor at h
  split at h
  · cases h
  · split at h
    · cases h
      exact ⟨by assumption, by assumption⟩
    · cases h

theorem callKind_eq_ok {f : Function} {args : List Term} {k : Kind}
    (h : callKind formulaKind ctx source name span f args = .ok k) :
    misplaced? f.signature 0 args = none ∧
      f.result.resolve (ctx.kindRequest formulaKind
        (args.map fun arg => ⟨arg.kind, arg.constant?⟩)) = .ok k := by
  unfold callKind at h
  split at h
  · cases h
  · refine ⟨by assumption, ?_⟩
    dsimp only at h
    split at h
    · cases h
      assumption
    · cases h

theorem ofCall_eq_ok {f : Function} {args : List Term}
    (h : ofCall formulaKind ctx source name span f args = .ok t) :
    ∃ k, callKind formulaKind ctx source name span f args = .ok k ∧ t = call k span f args := by
  obtain ⟨k, hk, ht⟩ := bind_eq_ok_iff.1 h
  exact ⟨k, hk, (Except.ok.inj ht).symm⟩

theorem ofTree_unary_eq_ok {op : UnaryOp} {operand : Tree}
    (h : ofTree formulaKind ctx source (.unary op span operand) = .ok t) :
    ∃ x k, ofTree formulaKind ctx source operand = .ok x ∧ unaryKind? op x.kind = some k ∧
      t = (unary k span op x).fold := by
  obtain ⟨x, hx, h⟩ := bind_eq_ok_iff.1 h
  obtain ⟨node, hnode, h⟩ := bind_eq_ok_iff.1 h
  obtain ⟨k, hk, rfl⟩ := ofUnary_eq_ok hnode
  exact ⟨x, k, hx, hk, (Except.ok.inj h).symm⟩

section Operands

variable {left right : Tree}

/-- An operator is made once both operands are there, and then folded. -/
theorem ofOperands_eq_ok {make : Term → Term → Analysis Term}
    (h : (do
      let x ← ofTree formulaKind ctx source left
      let y ← ofTree formulaKind ctx source right
      let node ← make x y
      pure node.fold) = .ok t) :
    ∃ x y node, ofTree formulaKind ctx source left = .ok x ∧
      ofTree formulaKind ctx source right = .ok y ∧ make x y = .ok node ∧ t = node.fold := by
  obtain ⟨x, hx, h⟩ := bind_eq_ok_iff.1 h
  obtain ⟨y, hy, h⟩ := bind_eq_ok_iff.1 h
  obtain ⟨node, hnode, h⟩ := bind_eq_ok_iff.1 h
  exact ⟨x, y, node, hx, hy, hnode, (Except.ok.inj h).symm⟩

theorem ofTree_arithmetic_eq_ok {op : ArithmeticOp}
    (h : ofTree formulaKind ctx source (.arithmetic op span left right) = .ok t) :
    ∃ x y k, ofTree formulaKind ctx source left = .ok x ∧
      ofTree formulaKind ctx source right = .ok y ∧
      arithmeticKind? op x.kind y.kind = some k ∧ t = (arithmetic k span op x y).fold := by
  obtain ⟨x, y, node, hx, hy, hnode, rfl⟩ := ofOperands_eq_ok h
  obtain ⟨k, hk, rfl⟩ := ofArithmetic_eq_ok hnode
  exact ⟨x, y, k, hx, hy, hk, rfl⟩

theorem ofTree_comparison_eq_ok {op : ComparisonOp}
    (h : ofTree formulaKind ctx source (.comparison op span left right) = .ok t) :
    ∃ x y, ofTree formulaKind ctx source left = .ok x ∧
      ofTree formulaKind ctx source right = .ok y ∧
      comparable op x.kind y.kind = true ∧ t = (comparison span op x y).fold := by
  obtain ⟨x, y, node, hx, hy, hnode, rfl⟩ := ofOperands_eq_ok h
  obtain ⟨hcomparable, rfl⟩ := ofComparison_eq_ok hnode
  exact ⟨x, y, hx, hy, hcomparable, rfl⟩

theorem ofTree_logical_eq_ok {op : LogicalOp}
    (h : ofTree formulaKind ctx source (.logical op span left right) = .ok t) :
    ∃ x y, ofTree formulaKind ctx source left = .ok x ∧
      ofTree formulaKind ctx source right = .ok y ∧
      x.kind.isTruthy = true ∧ y.kind.isTruthy = true ∧ t = (logical span op x y).fold := by
  obtain ⟨x, y, node, hx, hy, hnode, rfl⟩ := ofOperands_eq_ok h
  obtain ⟨htruthy, htruthy', rfl⟩ := ofLogical_eq_ok hnode
  exact ⟨x, y, hx, hy, htruthy, htruthy', rfl⟩

end Operands

/-- A call by any name but that of the conditional is one of a function. -/
theorem ofTree_call {args : List Tree} (hname : name ≠ conditionalName) :
    ofTree formulaKind ctx source (.call name span args) = (do
      let f ← functionFor ctx source name args.length span
      ofCall formulaKind ctx source name span f (← ofTrees formulaKind ctx source args)) := by
  unfold ofTree
  exact if_neg hname

theorem ofTrees_eq_ok {trees : List Tree} {ts : List Term}
    (h : ofTrees formulaKind ctx source trees = .ok ts) :
    ts.length = trees.length ∧
      ∀ t ∈ ts, ∃ tree ∈ trees, ofTree formulaKind ctx source tree = .ok t := by
  induction trees generalizing ts with
  | nil =>
      cases h
      exact ⟨rfl, nofun⟩
  | cons tree trees ih =>
      rw [ofTrees] at h
      obtain ⟨x, hx, h⟩ := bind_eq_ok_iff.1 h
      obtain ⟨xs, hxs, h⟩ := bind_eq_ok_iff.1 h
      cases h
      obtain ⟨hlength, horigin⟩ := ih hxs
      refine ⟨congrArg (· + 1) hlength, fun t ht => ?_⟩
      rcases List.mem_cons.1 ht with rfl | ht
      · exact ⟨tree, List.mem_cons_self, hx⟩
      · obtain ⟨origin, hmem, htree⟩ := horigin t ht
        exact ⟨origin, List.mem_cons_of_mem _ hmem, htree⟩

theorem ofTree_call_eq_ok {args : List Tree} (hname : name ≠ conditionalName)
    (h : ofTree formulaKind ctx source (.call name span args) = .ok t) :
    ∃ k f ts, ctx.functions.get? name = some f ∧
      f.signature.arity.accepts ts.length = true ∧
      callKind formulaKind ctx source name span f ts = .ok k ∧
      (∀ t ∈ ts, ∃ tree ∈ args, ofTree formulaKind ctx source tree = .ok t) ∧
      t = call k span f ts := by
  rw [ofTree_call hname] at h
  obtain ⟨f, hf, h⟩ := bind_eq_ok_iff.1 h
  obtain ⟨ts, hts, h⟩ := bind_eq_ok_iff.1 h
  obtain ⟨k, hk, rfl⟩ := ofCall_eq_ok h
  obtain ⟨hknown, haccepts⟩ := functionFor_eq_ok hf
  obtain ⟨hlength, horigin⟩ := ofTrees_eq_ok hts
  exact ⟨k, f, ts, hknown, hlength ▸ haccepts, hk, horigin, rfl⟩

/-- A conditional has three parts.  A constant condition hands on the branch that it selects,
and a missing value in place of both if it is missing itself. -/
theorem ofTree_conditional_eq_ok {args : List Tree}
    (h : ofTree formulaKind ctx source (.call conditionalName span args) = .ok t) :
    ∃ condition whenTrue whenFalse c, args = [condition, whenTrue, whenFalse] ∧
      ofTree formulaKind ctx source condition = .ok c ∧ c.kind.isTruthy = true ∧
      ((∃ v chosen, c.constant? = some v ∧ v.truth? = some chosen ∧
          ofTree formulaKind ctx source (if chosen then whenTrue else whenFalse) = .ok t) ∨
        ∃ x y, ofTree formulaKind ctx source whenTrue = .ok x ∧
          ofTree formulaKind ctx source whenFalse = .ok y ∧
          ((∃ v, c.constant? = some v ∧ v.truth? = none ∧
              t = constant (x.kind.unify y.kind) span (.missing (x.kind.unify y.kind))) ∨
            c.constant? = none ∧ t = conditional (x.kind.unify y.kind) span c x y)) := by
  unfold ofTree at h
  rw [if_pos rfl] at h
  split at h
  case h_2 => cases h
  case h_1 condition whenTrue whenFalse =>
    obtain ⟨c, hc, h⟩ := bind_eq_ok_iff.1 h
    split at h
    · cases h
    · rename_i htruthy
      refine ⟨condition, whenTrue, whenFalse, c, rfl, hc, by simpa using htruthy, ?_⟩
      cases hv : c.constant? with
      | none =>
          rw [selected?, hv] at h
          obtain ⟨x, hx, h⟩ := bind_eq_ok_iff.1 h
          obtain ⟨y, hy, h⟩ := bind_eq_ok_iff.1 h
          rw [ofConditional, hv] at h
          exact .inr ⟨x, y, hx, hy, .inr ⟨rfl, (Except.ok.inj h).symm⟩⟩
      | some v =>
          simp only [selected?, hv, Option.bind_eq_bind, Option.bind_some] at h
          cases htruth : v.truth? with
          | some chosen =>
              rw [htruth] at h
              exact .inl ⟨v, chosen, rfl, htruth, by cases chosen <;> exact h⟩
          | none =>
              rw [htruth] at h
              obtain ⟨x, hx, h⟩ := bind_eq_ok_iff.1 h
              obtain ⟨y, hy, h⟩ := bind_eq_ok_iff.1 h
              rw [ofConditional, hv] at h
              exact .inr ⟨x, y, hx, hy, .inl ⟨v, rfl, htruth, (Except.ok.inj h).symm⟩⟩

/-- Induction over the terms that resolving gives.  There is one case for each way in which
resolving makes a node, and one for the folding of the operators that it makes.  A
conditional whose condition is constant hands on the term of the branch that it selects. -/
theorem ofTree_induct {motive : Term → Prop}
    (constant : ∀ k span v, v.kind = k → motive (.constant k span v))
    (attributeRef : ∀ k span name, ctx.row.kind? name = some k →
      motive (.attributeRef k span name))
    (macroRef : ∀ span name, motive (.macroRef span name))
    (unary : ∀ k span op x, unaryKind? op x.kind = some k → motive x →
      motive (.unary k span op x))
    (arithmetic : ∀ k span op x y, arithmeticKind? op x.kind y.kind = some k → motive x →
      motive y → motive (.arithmetic k span op x y))
    (comparison : ∀ span op x y, comparable op x.kind y.kind = true → motive x → motive y →
      motive (.comparison span op x y))
    (logical : ∀ span op x y, x.kind.isTruthy = true → y.kind.isTruthy = true → motive x →
      motive y → motive (.logical span op x y))
    (conditional : ∀ span c t e, c.kind.isTruthy = true → motive c → motive t → motive e →
      motive (.conditional (t.kind.unify e.kind) span c t e))
    (call : ∀ k span name f args, ctx.functions.get? name = some f →
      f.signature.arity.accepts args.length = true →
      callKind formulaKind ctx source name span f args = .ok k →
      (∀ arg ∈ args, motive arg) → motive (.call k span f args))
    (fold : ∀ t, motive t → motive t.fold) {tree : Tree}
    (h : ofTree formulaKind ctx source tree = .ok t) : motive t := by
  induction tree generalizing t with
  | integer x span =>
      cases h
      exact constant _ span (.integer x) rfl
  | float x span =>
      cases h
      exact constant _ span (.double x) rfl
  | text s span =>
      cases h
      exact constant _ span (.ofString s) rfl
  | ident name span =>
      obtain ⟨v, -, rfl⟩ | ⟨k, hk, rfl⟩ := ofIdent_eq_ok h
      · exact constant _ span v rfl
      · exact attributeRef k span name hk
  | attributeRef name span =>
      obtain ⟨k, hk, rfl⟩ := ofAttribute_eq_ok h
      exact attributeRef k span name hk
  | macroRef name span =>
      cases h
      exact macroRef span name
  | unary op span operand ih =>
      obtain ⟨x, k, hx, hk, rfl⟩ := ofTree_unary_eq_ok h
      exact fold _ (unary k span op x hk (ih hx))
  | arithmetic op span left right ihl ihr =>
      obtain ⟨x, y, k, hx, hy, hk, rfl⟩ := ofTree_arithmetic_eq_ok h
      exact fold _ (arithmetic k span op x y hk (ihl hx) (ihr hy))
  | comparison op span left right ihl ihr =>
      obtain ⟨x, y, hx, hy, hcomparable, rfl⟩ := ofTree_comparison_eq_ok h
      exact fold _ (comparison span op x y hcomparable (ihl hx) (ihr hy))
  | logical op span left right ihl ihr =>
      obtain ⟨x, y, hx, hy, htruthy, htruthy', rfl⟩ := ofTree_logical_eq_ok h
      exact fold _ (logical span op x y htruthy htruthy' (ihl hx) (ihr hy))
  | call name span args ih =>
      by_cases hname : name = conditionalName
      · subst hname
        obtain ⟨condition, whenTrue, whenFalse, c, rfl, hc, htruthy, h⟩ :=
          ofTree_conditional_eq_ok h
        obtain ⟨v, chosen, -, -, h⟩ | ⟨x, y, hx, hy, ⟨v, -, -, rfl⟩ | ⟨-, rfl⟩⟩ := h
        · exact ih _ (by cases chosen <;> simp) h
        · exact constant _ span _ (Value.kind_missing _)
        · exact conditional span c x y htruthy (ih condition (by simp) hc)
            (ih whenTrue (by simp) hx) (ih whenFalse (by simp) hy)
      · obtain ⟨k, f, ts, hknown, haccepts, hk, horigin, rfl⟩ := ofTree_call_eq_ok hname h
        refine call k span name f ts hknown haccepts hk fun t ht => ?_
        obtain ⟨arg, harg, htree⟩ := horigin t ht
        exact ih arg harg htree

/-- Resolving a tree gives a well-kinded term. -/
theorem wellKinded_ofTree {tree : Tree} (h : ofTree formulaKind ctx source tree = .ok t) :
    t.WellKinded := by
  refine ofTree_induct (motive := WellKinded) ?constant ?attributeRef ?macroRef ?unary
    ?arithmetic ?comparison ?logical ?conditional ?call ?fold h
  case constant => exact fun _ _ _ hkind => .constant hkind
  case attributeRef => exact fun _ _ _ _ => .attributeRef
  case macroRef => exact fun _ _ => .macroRef
  case unary => exact fun _ _ _ _ hkind hx => .unary hkind hx
  case arithmetic => exact fun _ _ _ _ _ hkind hx hy => .arithmetic hkind hx hy
  case comparison => exact fun _ _ _ _ hcomparable hx hy => .comparison hcomparable hx hy
  case logical => exact fun _ _ _ _ hx hy ihx ihy => .logical hx hy ihx ihy
  case conditional => exact fun _ _ _ _ htruthy hc ht he => .conditional htruthy hc ht he
  case call =>
    exact fun _ _ _ _ _ _ haccepts hk hargs => .call haccepts (callKind_eq_ok hk).1 hargs
  case fold => exact fun _ ht => ht.fold

end Resolving

end Term

end RowFormula
