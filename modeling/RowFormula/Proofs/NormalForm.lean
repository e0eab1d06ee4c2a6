/-
# Resolved terms are normal

Resolving settles all that can be settled before a row is seen.  In the term of a formula no
operator has constant operands only, and no conditional has a constant condition.  What remains
of the tree once the branches are chosen decides whether the whole is a constant: it is one
exactly if no attribute, no macro and no call is left.
-/

import Mathlib.Data.List.Forall2
import RowFormula.Proofs.Origins

namespace RowFormula

namespace Term

/-- One of the nodes that folding is for. -/
def isOperator : Term → Bool
  | unary .. | arithmetic .. | comparison .. | logical .. => true
  | _ => false

/-- The node could be settled before any row is seen: it is an operator on constants, or a
conditional with a constant condition. -/
def settlesEarly : Term → Bool
  | conditional _ _ c _ _ => c.constant?.isSome
  | t => t.isOperator && t.parts.all fun part => part.constant?.isSome

variable {t : Term}

theorem isSome_folded? (h : t.isOperator = true) : t.folded?.isSome = t.settlesEarly := by
  cases t with
  | constant | attributeRef | macroRef | conditional | call => cases h
  | unary k span op x => cases hx : x.constant? <;> simp [folded?, settlesEarly, parts, h, hx]
  | arithmetic k span op x y =>
      cases hx : x.constant? <;> cases hy : y.constant? <;>
        simp [folded?, settlesEarly, parts, h, hx, hy]
  | comparison span op x y =>
      cases hx : x.constant? <;> cases hy : y.constant? <;>
        simp [folded?, settlesEarly, parts, h, hx, hy]
  | logical span op x y =>
      cases hx : x.constant? <;> cases hy : y.constant? <;>
        simp [folded?, settlesEarly, parts, h, hx, hy]

theorem settlesEarly_iff (h : t.isOperator = true) :
    t.settlesEarly = true ↔ ∀ part ∈ t.parts, part.constant?.isSome = true := by
  cases t with
  | constant | attributeRef | macroRef | conditional | call => cases h
  | unary | arithmetic | comparison | logical =>
      rw [settlesEarly, h, Bool.true_and, List.all_eq_true]
      exact nofun

/-- Folding either gives a constant or leaves a node that does not settle. -/
theorem fold_cases (h : t.isOperator = true) :
    (t.settlesEarly = true ∧ ∃ v, t.fold = constant t.kind t.span v) ∨
      (t.settlesEarly = false ∧ t.fold = t ∧ t.constant? = none) := by
  rw [← isSome_folded? h]
  cases hv : t.folded? with
  | some v => exact .inl ⟨rfl, v, by rw [fold, hv]⟩
  | none =>
      refine .inr ⟨rfl, by rw [fold, hv], ?_⟩
      cases t with
      | constant | attributeRef | macroRef | conditional | call => cases h
      | unary | arithmetic | comparison | logical => rfl

end Term

namespace Tree

/-- The node stands for something that is known only when a formula runs: an attribute, a
macro, or what a function returns. -/
def refers (ctx : Context) : Tree → Bool
  | attributeRef _ _ | macroRef _ _ => true
  | ident name _ => (ctx.constants.get? name).isNone
  | call name _ _ => name != Term.conditionalName
  | _ => false

section Remaining

variable (formulaKind : String → Except KindFault Kind) (ctx : Context) (source : String)

/-- The parts of a node that are left when the branches are chosen.  A constant condition goes
along with the branch that it does not select; if it is missing, it selects neither. -/
def remainingParts : Tree → List Tree
  | call name span [condition, whenTrue, whenFalse] =>
    if name = Term.conditionalName then
      match (Term.ofTree formulaKind ctx source condition).toOption.bind Term.constant? with
      | none => [condition, whenTrue, whenFalse]
      | some v =>
        match v.truth? with
        | some true => [whenTrue]
        | some false => [whenFalse]
        | none => []
    else (call name span [condition, whenTrue, whenFalse]).parts
  | t => t.parts

/-- The nodes that are left when the branches are chosen. -/
inductive Remains : Tree → Tree → Prop
  | self {t : Tree} : Remains t t
  | ofPart {t part node : Tree} :
      part ∈ t.remainingParts formulaKind ctx source → Remains part node → Remains t node

variable {formulaKind ctx source} {P : Tree → Prop} {t : Tree}

theorem forall_remains_iff : (∀ node, Remains formulaKind ctx source t node → P node) ↔
    P t ∧ ∀ part ∈ t.remainingParts formulaKind ctx source,
      ∀ node, Remains formulaKind ctx source part node → P node := by
  constructor
  · intro h
    exact ⟨h t .self, fun part hpart node hnode => h node (.ofPart hpart hnode)⟩
  · rintro ⟨hself, hparts⟩ node hnode
    cases hnode with
    | self => exact hself
    | ofPart hpart hnode => exact hparts _ hpart node hnode

theorem remainingParts_conditional {span : Span} {condition whenTrue whenFalse : Tree} {c : Term}
    (h : Term.ofTree formulaKind ctx source condition = .ok c) :
    (call Term.conditionalName span [condition, whenTrue, whenFalse]).remainingParts formulaKind
      ctx source =
        match c.constant? with
        | none => [condition, whenTrue, whenFalse]
        | some v =>
          match v.truth? with
          | some true => [whenTrue]
          | some false => [whenFalse]
          | none => [] := by
  rw [remainingParts, if_pos rfl, h]
  rfl

end Remaining

end Tree

namespace Term

variable {formulaKind : String → Except KindFault Kind} {ctx : Context} {source : String}
variable {tree : Tree} {t : Term}

/-- Induction over what remains of a tree and the term that it resolves to.  An operator is
folded once its operands are there.  A conditional is settled, by its only remaining part or by
none, or else its condition is not a constant. -/
theorem ofTree_remaining_induct {motive : Tree → Term → Prop}
    (constant : ∀ tree k span v, tree.refers ctx = false →
      tree.remainingParts formulaKind ctx source = [] → motive tree (.constant k span v))
    (reference : ∀ (tree : Tree) (t : Term), tree.refers ctx = true →
      t.settlesEarly = false → t.constant? = none →
      (∀ part ∈ t.parts, ∃ origin ∈ tree.parts, motive origin part) → motive tree t)
    (operator : ∀ (tree : Tree) (t : Term), tree.refers ctx = false → t.isOperator = true →
      List.Forall₂ motive (tree.remainingParts formulaKind ctx source) t.parts →
      motive tree t.fold)
    (branch : ∀ tree chosen t, tree.refers ctx = false →
      tree.remainingParts formulaKind ctx source = [chosen] → motive chosen t → motive tree t)
    (undecided : ∀ tree k span c x y, tree.refers ctx = false → c.constant? = none →
      List.Forall₂ motive (tree.remainingParts formulaKind ctx source) [c, x, y] →
      motive tree (.conditional k span c x y))
    (h : ofTree formulaKind ctx source tree = .ok t) : motive tree t := by
  have pair : ∀ {left right : Tree} {x y : Term}, motive left x → motive right y →
      List.Forall₂ motive [left, right] [x, y] := fun hx hy => .cons hx (.cons hy .nil)
  induction tree generalizing t with
  | integer | float | text =>
      cases h
      exact constant _ _ _ _ rfl rfl
  | macroRef name span =>
      cases h
      exact reference _ _ rfl rfl rfl (List.forall_mem_nil _)
  | ident name span =>
      cases hname : ctx.constants.get? name with
      | some v =>
          rw [ofTree, ofIdent, hname] at h
          cases h
          exact constant _ _ _ _ (by rw [Tree.refers, hname]; rfl) rfl
      | none =>
          rw [ofTree, ofIdent, hname] at h
          obtain ⟨k, -, rfl⟩ := ofAttribute_eq_ok h
          exact reference _ _ (by rw [Tree.refers, hname]; rfl) rfl rfl (List.forall_mem_nil _)
  | attributeRef name span =>
      obtain ⟨k, -, rfl⟩ := ofAttribute_eq_ok h
      exact reference _ _ rfl rfl rfl (List.forall_mem_nil _)
  | unary op span operand ih =>
      obtain ⟨x, k, hx, -, rfl⟩ := ofTree_unary_eq_ok h
      exact operator _ _ rfl rfl (.cons (ih hx) .nil)
  | arithmetic op span left right ihl ihr =>
      obtain ⟨x, y, k, hx, hy, -, rfl⟩ := ofTree_arithmetic_eq_ok h
      exact operator _ _ rfl rfl (pair (ihl hx) (ihr hy))
  | comparison op span left right ihl ihr =>
      obtain ⟨x, y, hx, hy, -, rfl⟩ := ofTree_comparison_eq_ok h
      exact operator _ _ rfl rfl (pair (ihl hx) (ihr hy))
  | logical op span left right ihl ihr =>
      obtain ⟨x, y, hx, hy, -, -, rfl⟩ := ofTree_logical_eq_ok h
      exact operator _ _ rfl rfl (pair (ihl hx) (ihr hy))
  | call name span args ih =>
      by_cases hname : name = conditionalName
      · subst hname
        obtain ⟨condition, whenTrue, whenFalse, c, rfl, hc, -, h⟩ := ofTree_conditional_eq_ok h
        have hremaining := @Tree.remainingParts_conditional formulaKind ctx source span condition
          whenTrue whenFalse c hc
        obtain ⟨v, chosen, hv, htruth, h⟩ |
          ⟨x, y, hx, hy, ⟨v, hv, htruth, rfl⟩ | ⟨hv, rfl⟩⟩ := h
        · simp only [hv, htruth] at hremaining
          refine branch _ (if chosen then whenTrue else whenFalse) _ rfl ?_
            (ih _ (by cases chosen <;> simp) h)
          cases chosen <;> exact hremaining
        · simp only [hv, htruth] at hremaining
          exact constant _ _ _ _ rfl hremaining
        · simp only [hv] at hremaining
          refine undecided _ _ _ _ _ _ rfl hv ?_
          rw [hremaining]
          exact .cons (ih condition (by simp) hc)
            (pair (ih whenTrue (by simp) hx) (ih whenFalse (by simp) hy))
      · obtain ⟨k, f, ts, -, -, -, horigin, rfl⟩ := ofTree_call_eq_ok hname h
        refine reference _ _ (bne_iff_ne.2 hname) rfl rfl fun t ht => ?_
        obtain ⟨arg, harg, htree⟩ := horigin t ht
        exact ⟨arg, harg, ih arg harg htree⟩

theorem exists_mem_of_forall₂ {α β : Type} {R : α → β → Prop} {as : List α} {bs : List β}
    (h : List.Forall₂ R as bs) : ∀ b ∈ bs, ∃ a ∈ as, R a b := by
  induction h with
  | nil => exact nofun
  | cons hhead _ ih =>
      refine List.forall_mem_cons.2 ⟨⟨_, .head _, hhead⟩, fun b hb => ?_⟩
      obtain ⟨a, ha, hrel⟩ := ih b hb
      exact ⟨a, .tail _ ha, hrel⟩

theorem forall_mem_iff_of_forall₂ {α β : Type} {P : α → Prop} {Q : β → Prop} {as : List α}
    {bs : List β} (h : List.Forall₂ (fun a b => P a ↔ Q b) as bs) :
    (∀ a ∈ as, P a) ↔ ∀ b ∈ bs, Q b := by
  induction h with
  | nil => exact ⟨nofun, nofun⟩
  | cons hhead _ ih => rw [List.forall_mem_cons, List.forall_mem_cons, hhead, ih]

/-- No node of the term of a tree could have been settled. -/
theorem settlesEarly_of_hasNode (h : ofTree formulaKind ctx source tree = .ok t) :
    ∀ node, t.HasNode node → node.settlesEarly = false := by
  refine ofTree_remaining_induct (motive := fun _ t => ∀ node, t.HasNode node →
    node.settlesEarly = false) ?constant ?reference ?operator ?branch ?undecided h
  case constant =>
    intro tree k span v _ _
    exact forall_hasNode_iff.2 ⟨rfl, List.forall_mem_nil _⟩
  case reference =>
    intro tree t _ hsettles _ hparts
    refine forall_hasNode_iff.2 ⟨hsettles, fun part hpart => ?_⟩
    obtain ⟨_, -, hnodes⟩ := hparts part hpart
    exact hnodes
  case operator =>
    intro tree t _ hoperator hparts
    obtain ⟨-, v, hfold⟩ | ⟨hsettles, hfold, -⟩ := fold_cases hoperator
    · rw [hfold]
      exact forall_hasNode_iff.2 ⟨rfl, List.forall_mem_nil _⟩
    · rw [hfold]
      refine forall_hasNode_iff.2 ⟨hsettles, fun part hpart => ?_⟩
      obtain ⟨_, -, hnodes⟩ := exists_mem_of_forall₂ hparts part hpart
      exact hnodes
  case branch =>
    intro tree chosen t _ _ hnodes
    exact hnodes
  case undecided =>
    intro tree k span c x y _ hc hparts
    refine forall_hasNode_iff.2 ⟨by rw [settlesEarly, hc]; rfl, fun part hpart => ?_⟩
    obtain ⟨_, -, hnodes⟩ := exists_mem_of_forall₂ hparts part hpart
    exact hnodes

/-- A tree resolves to a constant if nothing that remains of it refers to something, and only
then. -/
theorem forall_remains_iff_constant (h : ofTree formulaKind ctx source tree = .ok t) :
    (∀ node, Tree.Remains formulaKind ctx source tree node → node.refers ctx = false) ↔
      t.constant?.isSome = true := by
  refine ofTree_remaining_induct (motive := fun tree t =>
    (∀ node, Tree.Remains formulaKind ctx source tree node → node.refers ctx = false) ↔
      t.constant?.isSome = true) ?constant ?reference ?operator ?branch ?undecided h
  case constant =>
    intro tree k span v hrefers hremaining
    rw [Tree.forall_remains_iff, hremaining]
    exact iff_of_true ⟨hrefers, List.forall_mem_nil _⟩ rfl
  case reference =>
    intro tree t hrefers _ hconstant _
    rw [Tree.forall_remains_iff, hrefers, hconstant]
    exact iff_of_false (fun h => Bool.noConfusion h.1) Bool.false_ne_true
  case operator =>
    intro tree t hrefers hoperator hparts
    have hsettles := (forall_mem_iff_of_forall₂ hparts).trans (settlesEarly_iff hoperator).symm
    rw [Tree.forall_remains_iff, hsettles]
    obtain ⟨hsettles, v, hfold⟩ | ⟨hsettles, hfold, hconstant⟩ := fold_cases hoperator
    · rw [hfold]
      exact iff_of_true ⟨hrefers, hsettles⟩ rfl
    · rw [hfold, hconstant, hsettles]
      exact iff_of_false (fun h => Bool.noConfusion h.2) Bool.false_ne_true
  case branch =>
    intro tree chosen t hrefers hremaining hchosen
    rw [Tree.forall_remains_iff, hremaining, List.forall_mem_singleton, hchosen]
    exact and_iff_right hrefers
  case undecided =>
    intro tree k span c x y _ hc hparts
    refine iff_of_false (fun h => ?_) Bool.false_ne_true
    have hall := (forall_mem_iff_of_forall₂ hparts).1 (Tree.forall_remains_iff.1 h).2
    have hcondition := hall c (.head _)
    rw [hc] at hcondition
    cases hcondition

end Term

namespace Formula

/-- A compiled formula is fully folded: nowhere in its term is there an operator on constants
only or a conditional with a constant condition.  The whole is one constant exactly if nothing
that remains of its tree refers to an attribute, a macro or a function, and then every run that
may look at one node gives this constant. -/
theorem fully_folded {ctx : Context} {source : String} {f : Formula}
    (h : compile ctx source = .ok f) :
    (∀ node, f.term.HasNode node → node.settlesEarly = false) ∧
    ∃ tree, Tree.parse ctx.options.maxParseDepth source = .ok tree ∧
      ((∀ node, Tree.Remains (nestedKind ctx.levels ctx) ctx source tree node →
          node.refers ctx = false) ↔ ∃ v, f.constant? = some v) ∧
      ∀ v, f.constant? = some v →
        ∀ later : Context, 1 ≤ later.options.maxDepth → f.run later = pure v := by
  obtain ⟨tree, htree, hterm, -⟩ := compileWith_eq_ok h
  refine ⟨Term.settlesEarly_of_hasNode hterm, tree, htree, ?_, ?_⟩
  · rw [Term.forall_remains_iff_constant hterm, Option.isSome_iff_exists]
    rfl
  · intro v hv later hdepth
    rw [run, runWithin, runWith, Term.evaluate_of_constant? hv hdepth]
    rfl

/-- The condition is settled, and with it goes the attribute of the other branch. -/
theorem fully_folded_of_static_choice :
    ∃ ctx f tree, compile ctx "if(1 < 2, 3 * 4, [a])" = .ok f ∧
      Tree.parse ctx.options.maxParseDepth "if(1 < 2, 3 * 4, [a])" = .ok tree ∧
      (∀ node, f.term.HasNode node → node.settlesEarly = false) ∧
      (∀ node, Tree.Remains (nestedKind ctx.levels ctx) ctx "if(1 < 2, 3 * 4, [a])" tree node →
        node.refers ctx = false) ∧
      ∀ later : Context, 1 ≤ later.options.maxDepth → f.run later = pure (.integer 12) := by
  have hcheck : ((compile { row := Row.ofList [("a", .double 1)] }
      "if(1 < 2, 3 * 4, [a])").toOption.any fun f => f.constant? = some (.integer 12)) = true := by
    decide +kernel
  obtain ⟨f, hf, hvalue⟩ := (Option.any_eq_true _ _).1 hcheck
  have hcompile := toOption_eq_some_iff.1 hf
  have hconstant : f.constant? = some (.integer 12) := of_decide_eq_true hvalue
  obtain ⟨hnodes, tree, htree, hremains, hrun⟩ := fully_folded hcompile
  exact ⟨_, f, tree, hcompile, htree, hnodes, hremains.2 ⟨_, hconstant⟩, hrun _ hconstant⟩

end Formula

end RowFormula
