/-
# Where terms come from

Resolving keeps every node at its place: a node of a term stands for a node of the tree, and
its parts stand for parts of that node.  What is left out on the way are operators on
constants and the branches that are never taken.  An error is found at a node of the tree,
too.
-/

import RowFormula.Proofs.Folding
import RowFormula.Proofs.Nodes

namespace RowFormula

namespace Tree

/-- The operands or arguments of a node. -/
def parts : Tree → List Tree
  | unary _ _ x => [x]
  | arithmetic _ _ x y => [x, y]
  | comparison _ _ x y => [x, y]
  | logical _ _ x y => [x, y]
  | call _ _ args => args
  | _ => []

/-- The nodes of a tree: the tree itself and the nodes of its parts. -/
inductive HasNode : Tree → Tree → Prop
  | self {t : Tree} : HasNode t t
  | ofPart {t part node : Tree} : part ∈ t.parts → HasNode part node → HasNode t node

/-- What holds of all nodes holds of the tree itself and of all nodes of its parts. -/
theorem forall_hasNode_iff {P : Tree → Prop} {t : Tree} :
    (∀ node, t.HasNode node → P node) ↔
      P t ∧ ∀ part ∈ t.parts, ∀ node, part.HasNode node → P node := by
  constructor
  · intro h
    exact ⟨h t .self, fun part hpart node hnode => h node (.ofPart hpart hnode)⟩
  · rintro ⟨hself, hparts⟩ node hnode
    cases hnode with
    | self => exact hself
    | ofPart hpart hnode => exact hparts _ hpart node hnode

/-- A leaf is read as a single node at its place. -/
theorem ofLeaf_eq_ok {source : String} {span : Span} {leaf : Grammar.Leaf} {t : Tree}
    (h : ofLeaf source span leaf = .ok t) : t.parts = [] ∧ t.span = span := by
  cases leaf with
  | attributeRef | macroRef | ident =>
      cases h
      exact ⟨rfl, rfl⟩
  | float | integer =>
      obtain ⟨x, -, h⟩ := bind_eq_ok_iff.1 h
      cases h
      exact ⟨rfl, rfl⟩
  | string content =>
      rw [ofLeaf] at h
      split at h
      · cases h
        exact ⟨rfl, rfl⟩
      · cases h

end Tree

/-- The fault does not come from the rule of a function. -/
def TypeFault.isOwn : TypeFault → Bool
  | undetermined .. => false
  | _ => true

namespace Term

variable {formulaKind : String → Except KindFault Kind} {ctx : Context} {source : String}
variable {tree : Tree} {t : Term} {e : TypeError}

theorem parts_fold (t : Term) : t.fold.parts = [] ∨ t.fold = t := by
  unfold fold
  split
  · exact .inl rfl
  · exact .inr rfl

/-- Induction over a tree and the term that it resolves to: the term stands for the node of
the tree, with parts that stand for parts of it, or for a part in place of the node. -/
theorem ofTree_origin_induct {motive : Tree → Term → Prop}
    (node : ∀ (tree : Tree) (t : Term), t.span = tree.span →
      (∀ part ∈ t.parts, ∃ origin ∈ tree.parts, motive origin part) → motive tree t)
    (branch : ∀ (tree origin : Tree) (t : Term),
      origin ∈ tree.parts → motive origin t → motive tree t)
    (h : ofTree formulaKind ctx source tree = .ok t) : motive tree t := by
  have folded : ∀ (tree : Tree) (t : Term), t.span = tree.span →
      (∀ part ∈ t.parts, ∃ origin ∈ tree.parts, motive origin part) → motive tree t.fold := by
    intro tree t hspan hparts
    refine node tree t.fold ((span_fold t).trans hspan) ?_
    obtain hconstant | hsame := parts_fold t
    · rw [hconstant]
      exact nofun
    · rw [hsame]
      exact hparts
  have pair : ∀ {left right : Tree} {x y : Term}, motive left x → motive right y →
      ∀ part ∈ [x, y], ∃ origin ∈ [left, right], motive origin part := by
    intro left right x y hx hy
    exact List.forall_mem_cons.2 ⟨⟨left, .head _, hx⟩,
      List.forall_mem_singleton.2 ⟨right, .tail _ (.head _), hy⟩⟩
  induction tree generalizing t with
  | integer | float | text | macroRef =>
      cases h
      exact node _ _ rfl nofun
  | ident name span =>
      obtain ⟨v, -, rfl⟩ | ⟨k, -, rfl⟩ := ofIdent_eq_ok h <;> exact node _ _ rfl nofun
  | attributeRef name span =>
      obtain ⟨k, -, rfl⟩ := ofAttribute_eq_ok h
      exact node _ _ rfl nofun
  | unary op span operand ih =>
      obtain ⟨x, k, hx, -, rfl⟩ := ofTree_unary_eq_ok h
      exact folded _ _ rfl (List.forall_mem_singleton.2 ⟨operand, .head _, ih hx⟩)
  | arithmetic op span left right ihl ihr =>
      obtain ⟨x, y, k, hx, hy, -, rfl⟩ := ofTree_arithmetic_eq_ok h
      exact folded _ _ rfl (pair (ihl hx) (ihr hy))
  | comparison op span left right ihl ihr =>
      obtain ⟨x, y, hx, hy, -, rfl⟩ := ofTree_comparison_eq_ok h
      exact folded _ _ rfl (pair (ihl hx) (ihr hy))
  | logical op span left right ihl ihr =>
      obtain ⟨x, y, hx, hy, -, -, rfl⟩ := ofTree_logical_eq_ok h
      exact folded _ _ rfl (pair (ihl hx) (ihr hy))
  | call name span args ih =>
      by_cases hname : name = conditionalName
      · subst hname
        obtain ⟨condition, whenTrue, whenFalse, c, rfl, hc, -, h⟩ := ofTree_conditional_eq_ok h
        obtain ⟨v, chosen, -, -, h⟩ | ⟨x, y, hx, hy, ⟨v, -, -, rfl⟩ | ⟨-, rfl⟩⟩ := h
        · exact branch _ _ _ (by cases chosen <;> simp [Tree.parts])
            (ih _ (by cases chosen <;> simp) h)
        · exact node _ _ rfl nofun
        · refine node _ _ rfl (List.forall_mem_cons.2 ⟨⟨condition, .head _, ?_⟩, ?_⟩)
          · exact ih condition (by simp) hc
          · refine List.forall_mem_cons.2 ⟨⟨whenTrue, .tail _ (.head _), ?_⟩, ?_⟩
            · exact ih whenTrue (by simp) hx
            · exact List.forall_mem_singleton.2
                ⟨whenFalse, .tail _ (.tail _ (.head _)), ih whenFalse (by simp) hy⟩
      · obtain ⟨k, f, ts, -, -, -, horigin, rfl⟩ := ofTree_call_eq_ok hname h
        refine node _ _ rfl fun t ht => ?_
        obtain ⟨arg, harg, htree⟩ := horigin t ht
        exact ⟨arg, harg, ih arg harg htree⟩

/-- Every node of the term has the place of a node of the tree. -/
theorem exists_origin_of_hasNode (h : ofTree formulaKind ctx source tree = .ok t) {node : Term}
    (hnode : t.HasNode node) : ∃ origin, tree.HasNode origin ∧ origin.span = node.span := by
  refine ofTree_origin_induct (motive := fun tree t => ∀ node, t.HasNode node →
    ∃ origin, tree.HasNode origin ∧ origin.span = node.span) ?node ?branch h node hnode
  case node =>
    intro tree t hspan hparts
    refine forall_hasNode_iff.2 ⟨⟨tree, .self, hspan.symm⟩, fun part hpart node hnode => ?_⟩
    obtain ⟨origin, horigin, hplaces⟩ := hparts part hpart
    obtain ⟨place, hplace, hspan⟩ := hplaces node hnode
    exact ⟨place, .ofPart horigin hplace, hspan⟩
  case branch =>
    intro tree origin t horigin hplaces node hnode
    obtain ⟨place, hplace, hspan⟩ := hplaces node hnode
    exact ⟨place, .ofPart horigin hplace, hspan⟩

/-! ### Errors -/

/-- If the fault comes from the rule of a function, the rule gave it as the reason. -/
def IsExplained (formulaKind : String → Except KindFault Kind) (ctx : Context)
    (fault : TypeFault) : Prop :=
  ∀ function reason, fault = .undetermined function reason →
    ∃ f args, ctx.functions.get? function = some f ∧
      f.result.resolve (ctx.kindRequest formulaKind args) = .error reason

/-- The error is found at a node of the tree, and it is explained. -/
def IsFoundIn (formulaKind : String → Except KindFault Kind) (ctx : Context) (source : String)
    (tree : Tree) (e : TypeError) : Prop :=
  ∃ node fault, tree.HasNode node ∧ IsExplained formulaKind ctx fault ∧
    e = .mk fault source node.span

/-- Only at one place can the step fail, and for a reason of its own. -/
def FailsAt {α : Type} (source : String) (span : Span) (x : Analysis α) : Prop :=
  ∀ e, x = .error e → ∃ fault, fault.isOwn = true ∧ e = .mk fault source span

section Steps

variable {span : Span} {name : String} {x y : Term}

theorem isExplained_of_isOwn {fault : TypeFault} (h : fault.isOwn = true) :
    IsExplained formulaKind ctx fault := by
  rintro function reason rfl
  cases h

theorem failsAt_fail {α : Type} {fault : TypeFault} (h : fault.isOwn = true) :
    FailsAt source span (fail source fault span : Analysis α) :=
  fun _ he => ⟨fault, h, (Except.error.inj he).symm⟩

theorem failsAt_pure {α : Type} (a : α) : FailsAt source span (pure a) := nofun

theorem failsAt_ofAttribute {unknown : TypeFault} (h : unknown.isOwn = true) :
    FailsAt source span (ofAttribute ctx source unknown name span) := by
  unfold ofAttribute
  split
  · exact failsAt_pure _
  · exact failsAt_fail h

theorem failsAt_ofIdent : FailsAt source span (ofIdent ctx source name span) := by
  unfold ofIdent
  split
  · exact failsAt_pure _
  · exact failsAt_ofAttribute rfl

theorem failsAt_ofUnary {op : UnaryOp} : FailsAt source span (ofUnary source op span x) := by
  unfold ofUnary
  split
  · exact failsAt_pure _
  · exact failsAt_fail rfl

theorem failsAt_ofArithmetic {op : ArithmeticOp} :
    FailsAt source span (ofArithmetic source op span x y) := by
  unfold ofArithmetic
  split
  · exact failsAt_pure _
  · exact failsAt_fail rfl

theorem failsAt_ofComparison {op : ComparisonOp} :
    FailsAt source span (ofComparison source op span x y) := by
  unfold ofComparison
  split
  · exact failsAt_pure _
  · exact failsAt_fail rfl

theorem failsAt_ofLogical {op : LogicalOp} :
    FailsAt source span (ofLogical source op span x y) := by
  unfold ofLogical
  split
  · exact failsAt_pure _
  · exact failsAt_fail rfl

theorem failsAt_functionFor {count : Nat} :
    FailsAt source span (functionFor ctx source name count span) := by
  unfold functionFor
  split
  · exact failsAt_fail rfl
  · split
    · exact failsAt_pure _
    · exact failsAt_fail rfl

theorem mem_of_misplaced? {signature : Signature} {args : List Term} {position found : Nat}
    {arg : Term} (h : misplaced? signature position args = some (found, arg)) : arg ∈ args := by
  induction args generalizing position with
  | nil => cases h
  | cons t ts ih =>
      rw [misplaced?] at h
      split at h
      · exact .tail _ (ih h)
      · cases h
        exact .head _

/-- A call fails at its own place or at that of an argument. -/
theorem ofCall_eq_error {f : Function} {args : List Term}
    (hf : ctx.functions.get? name = some f)
    (h : ofCall formulaKind ctx source name span f args = .error e) :
    ∃ fault place, (place = span ∨ ∃ arg ∈ args, place = arg.span) ∧
      IsExplained formulaKind ctx fault ∧ e = .mk fault source place := by
  obtain h | ⟨_, -, h⟩ := bind_eq_error_iff.1 h
  · unfold callKind at h
    split at h
    · obtain rfl := Except.error.inj h
      exact ⟨_, _, .inr ⟨_, mem_of_misplaced? (by assumption), rfl⟩, isExplained_of_isOwn rfl, rfl⟩
    · dsimp only at h
      split at h
      · cases h
      · rename_i reason hreason
        obtain rfl := Except.error.inj h
        refine ⟨_, _, .inl rfl, ?_, rfl⟩
        rintro _ _ ⟨⟩
        exact ⟨f, _, hf, hreason⟩
  · cases h

end Steps

theorem IsFoundIn.ofPart {part : Tree} (hpart : part ∈ tree.parts)
    (h : IsFoundIn formulaKind ctx source part e) : IsFoundIn formulaKind ctx source tree e := by
  obtain ⟨node, fault, hnode, hexplained, he⟩ := h
  exact ⟨node, fault, .ofPart hpart hnode, hexplained, he⟩

theorem FailsAt.isFoundIn {α : Type} {x : Analysis α} (h : FailsAt source tree.span x)
    (he : x = .error e) : IsFoundIn formulaKind ctx source tree e := by
  obtain ⟨fault, hown, rfl⟩ := h e he
  exact ⟨tree, fault, .self, isExplained_of_isOwn hown, rfl⟩

/-- An operator on two operands fails in one of them or at its own place. -/
theorem isFoundIn_of_operands {left right : Tree} {make : Term → Term → Analysis Term}
    (hmake : ∀ x y, FailsAt source tree.span (make x y)) (hparts : tree.parts = [left, right])
    (hleft : ∀ {e}, ofTree formulaKind ctx source left = .error e →
      IsFoundIn formulaKind ctx source left e)
    (hright : ∀ {e}, ofTree formulaKind ctx source right = .error e →
      IsFoundIn formulaKind ctx source right e)
    (h : (do
      let x ← ofTree formulaKind ctx source left
      let y ← ofTree formulaKind ctx source right
      let made ← make x y
      pure made.fold) = .error e) : IsFoundIn formulaKind ctx source tree e := by
  obtain h | ⟨x, -, h⟩ := bind_eq_error_iff.1 h
  · exact (hleft h).ofPart (by simp [hparts])
  · obtain h | ⟨y, -, h⟩ := bind_eq_error_iff.1 h
    · exact (hright h).ofPart (by simp [hparts])
    · obtain h | ⟨_, -, h⟩ := bind_eq_error_iff.1 h
      · exact (hmake x y).isFoundIn h
      · cases h

theorem ofTrees_eq_error {trees : List Tree}
    (h : ofTrees formulaKind ctx source trees = .error e) :
    ∃ tree ∈ trees, ofTree formulaKind ctx source tree = .error e := by
  induction trees with
  | nil => cases h
  | cons tree trees ih =>
      rw [ofTrees] at h
      obtain h | ⟨_, -, h⟩ := bind_eq_error_iff.1 h
      · exact ⟨tree, .head _, h⟩
      · obtain h | ⟨_, -, h⟩ := bind_eq_error_iff.1 h
        · obtain ⟨other, hmem, hother⟩ := ih h
          exact ⟨other, .tail _ hmem, hother⟩
        · cases h

/-- A tree that cannot be resolved has a node at the place of the error. -/
theorem isFoundIn_of_ofTree (h : ofTree formulaKind ctx source tree = .error e) :
    IsFoundIn formulaKind ctx source tree e := by
  induction tree generalizing e with
  | integer | float | text | macroRef => cases h
  | ident name span => exact FailsAt.isFoundIn failsAt_ofIdent h
  | attributeRef name span =>
      exact FailsAt.isFoundIn (failsAt_ofAttribute rfl) h
  | unary op span operand ih =>
      obtain h | ⟨x, -, h⟩ := bind_eq_error_iff.1 h
      · exact (ih h).ofPart (.head _)
      · obtain h | ⟨_, -, h⟩ := bind_eq_error_iff.1 h
        · exact FailsAt.isFoundIn failsAt_ofUnary h
        · cases h
  | arithmetic op span left right ihl ihr =>
      exact isFoundIn_of_operands
        (fun _ _ => failsAt_ofArithmetic) rfl ihl ihr h
  | comparison op span left right ihl ihr =>
      exact isFoundIn_of_operands
        (fun _ _ => failsAt_ofComparison) rfl ihl ihr h
  | logical op span left right ihl ihr =>
      exact isFoundIn_of_operands
        (fun _ _ => failsAt_ofLogical) rfl ihl ihr h
  | call name span args ih =>
      by_cases hname : name = conditionalName
      · subst hname
        unfold ofTree at h
        rw [if_pos rfl] at h
        split at h
        · rename_i condition whenTrue whenFalse
          obtain h | ⟨c, hc, h⟩ := bind_eq_error_iff.1 h
          · exact (ih condition (by simp) h).ofPart (.head _)
          · split at h
            · obtain ⟨fault, hown, rfl⟩ := failsAt_fail rfl e h
              obtain ⟨origin, horigin, hspan⟩ := exists_origin_of_hasNode hc .self
              exact ⟨origin, fault, .ofPart (.head _) horigin, isExplained_of_isOwn hown,
                by rw [hspan]⟩
            · split at h
              · exact (ih whenTrue (by simp) h).ofPart (.tail _ (.head _))
              · exact (ih whenFalse (by simp) h).ofPart (.tail _ (.tail _ (.head _)))
              · obtain h | ⟨_, -, h⟩ := bind_eq_error_iff.1 h
                · exact (ih whenTrue (by simp) h).ofPart (.tail _ (.head _))
                · obtain h | ⟨_, -, h⟩ := bind_eq_error_iff.1 h
                  · exact (ih whenFalse (by simp) h).ofPart (.tail _ (.tail _ (.head _)))
                  · cases h
        · exact FailsAt.isFoundIn (failsAt_fail rfl) h
      · rw [ofTree_call hname] at h
        obtain h | ⟨f, hf, h⟩ := bind_eq_error_iff.1 h
        · exact FailsAt.isFoundIn failsAt_functionFor h
        · obtain h | ⟨ts, hts, h⟩ := bind_eq_error_iff.1 h
          · obtain ⟨arg, harg, h⟩ := ofTrees_eq_error h
            exact (ih arg harg h).ofPart harg
          · obtain ⟨fault, place, rfl | ⟨t, ht, rfl⟩, hexplained, rfl⟩ :=
              ofCall_eq_error (functionFor_eq_ok hf).1 h
            · exact ⟨_, fault, .self, hexplained, rfl⟩
            · obtain ⟨arg, harg, htree⟩ := (ofTrees_eq_ok hts).2 t ht
              obtain ⟨origin, horigin, hspan⟩ := exists_origin_of_hasNode htree .self
              exact ⟨origin, fault, .ofPart harg horigin, hexplained, by rw [hspan]⟩

end Term

end RowFormula
