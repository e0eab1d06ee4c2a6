/-
# Nodes of resolved terms

What resolving settles for each single node (`ResolvedIn`), and which node is to blame when
an evaluation fails (`Faults`).  A node is at fault itself if it is too deep, or if its parts
have values and what it does with them fails; every failure of an evaluation is that of a
node at fault and names its place.
-/

import RowFormula.Proofs.KindSoundness

namespace RowFormula

namespace Term

/-- What holds of all nodes holds of the term itself and of all nodes of its parts. -/
theorem forall_hasNode_iff {P : Term → Prop} {t : Term} :
    (∀ node, t.HasNode node → P node) ↔
      P t ∧ ∀ part ∈ t.parts, ∀ node, part.HasNode node → P node := by
  constructor
  · intro h
    exact ⟨h t .self, fun part hpart node hnode => h node (.ofPart hpart hnode)⟩
  · rintro ⟨hself, hparts⟩ node hnode
    cases hnode with
    | self => exact hself
    | ofPart hpart hnode => exact hparts _ hpart node hnode

theorem HasNode.trans {t u node : Term} (hu : t.HasNode u) (hnode : u.HasNode node) :
    t.HasNode node := by
  induction hu with
  | self => exact hnode
  | ofPart hpart _ ih => exact .ofPart hpart (ih hnode)

/-- Induction over a term by its parts, without regard to the shape of the term. -/
theorem parts_induct {motive : Term → Prop}
    (node : ∀ t, (∀ part ∈ t.parts, motive part) → motive t) (t : Term) : motive t := by
  induction t with
  | constant | attributeRef | macroRef => exact node _ nofun
  | unary k span op x ih => exact node _ (by simpa [parts] using ih)
  | arithmetic k span op x y ihx ihy => exact node _ (by simpa [parts] using ⟨ihx, ihy⟩)
  | comparison span op x y ihx ihy => exact node _ (by simpa [parts] using ⟨ihx, ihy⟩)
  | logical span op x y ihx ihy => exact node _ (by simpa [parts] using ⟨ihx, ihy⟩)
  | conditional k span c x y ihc ihx ihy =>
      exact node _ (by simpa [parts] using ⟨ihc, ihx, ihy⟩)
  | call k span f args ih => exact node _ ih

/-- What the arguments of a call say about themselves before any row is seen. -/
abbrev infos (args : List Term) : List ArgInfo :=
  args.map fun arg => ⟨arg.kind, arg.constant?⟩

/-- What is settled about a node when it is resolved: an attribute has the kind that the row
declares, and a call is one of a function that is known, with the kind that its rule gives. -/
def ResolvedIn (formulaKind : String → Except KindFault Kind) (ctx : Context) : Term → Prop
  | attributeRef k _ name => ctx.row.kind? name = some k
  | call k _ f args =>
    (∃ name, ctx.functions.get? name = some f) ∧
      f.result.resolve (ctx.kindRequest formulaKind (infos args)) = .ok k
  | _ => True

section Resolving

variable {formulaKind : String → Except KindFault Kind} {ctx : Context} {source : String}

theorem resolvedIn_ofTree {tree : Tree} {t : Term}
    (h : ofTree formulaKind ctx source tree = .ok t) :
    ∀ node, t.HasNode node → node.ResolvedIn formulaKind ctx := by
  refine ofTree_induct (motive := fun t => ∀ node, t.HasNode node →
      node.ResolvedIn formulaKind ctx) ?constant ?attributeRef ?macroRef ?unary ?arithmetic
    ?comparison ?logical ?conditional ?call ?fold h
  case constant =>
    intro k span v _
    exact forall_hasNode_iff.2 ⟨trivial, List.forall_mem_nil _⟩
  case attributeRef =>
    intro k span name hk
    exact forall_hasNode_iff.2 ⟨hk, List.forall_mem_nil _⟩
  case macroRef =>
    intro span name
    exact forall_hasNode_iff.2 ⟨trivial, List.forall_mem_nil _⟩
  case unary =>
    intro k span op x _ hx
    refine forall_hasNode_iff.2 ⟨trivial, ?_⟩
    simpa [parts] using hx
  case arithmetic =>
    intro k span op x y _ hx hy
    refine forall_hasNode_iff.2 ⟨trivial, ?_⟩
    simpa [parts] using ⟨hx, hy⟩
  case comparison =>
    intro span op x y _ hx hy
    refine forall_hasNode_iff.2 ⟨trivial, ?_⟩
    simpa [parts] using ⟨hx, hy⟩
  case logical =>
    intro span op x y _ _ hx hy
    refine forall_hasNode_iff.2 ⟨trivial, ?_⟩
    simpa [parts] using ⟨hx, hy⟩
  case conditional =>
    intro span c t e _ hc ht he
    refine forall_hasNode_iff.2 ⟨trivial, ?_⟩
    simpa [parts] using ⟨hc, ht, he⟩
  case call =>
    intro k span name f args hknown _ hk hargs
    exact forall_hasNode_iff.2 ⟨⟨⟨name, hknown⟩, (callKind_eq_ok hk).2⟩, hargs⟩
  case fold =>
    intro t ht
    unfold fold
    split
    · exact forall_hasNode_iff.2 ⟨trivial, List.forall_mem_nil _⟩
    · exact ht

end Resolving

section Evaluating

variable (evaluateFormula : String → Evaluation EvaluationFault Value) (ctx : Context)
variable (maxDepth : Nat)

/-- The node itself is at fault, below `depth` others: it is too deep, or its parts have
values and what it does with them fails. -/
inductive Faults : (depth : Nat) → Term → EvaluationFault → Prop
  | tooDeep {depth : Nat} {t : Term} :
      maxDepth ≤ depth → Faults depth t (.depthExceeded (depth + 1) maxDepth)
  | noAttribute {depth : Nat} {k : Kind} {span : Span} {name : String} :
      ctx.row.get? name = none → Faults depth (.attributeRef k span name) (.unknownAttribute name)
  | attributeKind {depth : Nat} {k : Kind} {span : Span} {name : String} {v : Value} :
      ctx.row.get? name = some v → v.coerce? k = none →
      Faults depth (.attributeRef k span name) (.kindMismatch k v.kind)
  | noMacro {depth : Nat} {span : Span} {name : String} :
      ctx.macros.get? name = none → Faults depth (.macroRef span name) (.unknownMacro name)
  | branchKind {depth : Nat} {k : Kind} {span : Span} {c t e branch : Term} {v : Value} :
      branch = t ∨ branch = e →
      (branch.evaluate evaluateFormula ctx maxDepth (depth + 1)).Returns v →
      v.coerce? k = none → Faults depth (.conditional k span c t e) (.kindMismatch k v.kind)
  | body {depth : Nat} {k : Kind} {span : Span} {f : Function} {args : List Term}
      {values : List Value} {fault : EvaluationFault} :
      (evaluateAll evaluateFormula ctx maxDepth (depth + 1) args).Returns values →
      (f.body (ctx.call evaluateFormula f k) values).Fails fault →
      Faults depth (.call k span f args) fault
  | resultKind {depth : Nat} {k : Kind} {span : Span} {f : Function} {args : List Term}
      {values : List Value} {v : Value} :
      (evaluateAll evaluateFormula ctx maxDepth (depth + 1) args).Returns values →
      (f.body (ctx.call evaluateFormula f k) values).Returns v → v.coerce? k = none →
      Faults depth (.call k span f args) (.kindMismatch k v.kind)

/-- Some node of the term is at fault and is what the error reports. -/
def Blames (t : Term) (e : EvaluationError) : Prop :=
  ∃ node depth fault, t.HasNode node ∧ Faults evaluateFormula ctx maxDepth depth node fault ∧
    e = .located fault node.span

/-- The node is at fault below `depth` others, and the error names its place. -/
def FailsItself (depth : Nat) (t : Term) (e : EvaluationError) : Prop :=
  ∃ fault, Faults evaluateFormula ctx maxDepth depth t fault ∧ e = .located fault t.span

variable {evaluateFormula ctx maxDepth} {t : Term} {depth : Nat} {e : EvaluationError}

theorem fails_of_guardDepth {x : Run Value}
    (h : (guardDepth maxDepth depth t.span >>= fun _ => x).Fails e) :
    FailsItself evaluateFormula ctx maxDepth depth t e ∨ x.Fails e := by
  obtain hguard | ⟨_, -, hx⟩ := h.of_bind
  · unfold guardDepth at hguard
    split at hguard
    · obtain rfl := Evaluation.fails_throw.1 hguard
      exact .inl ⟨_, .tooDeep (by assumption), rfl⟩
    · exact absurd hguard Evaluation.not_fails_pure
  · exact .inr hx

theorem fails_of_conform {k : Kind} {span : Span} {v : Value} (h : (conform k span v).Fails e) :
    v.coerce? k = none ∧ e = .located (.kindMismatch k v.kind) span := by
  obtain ⟨hnone, he⟩ := Evaluation.fails_ofOption.1 h
  exact ⟨hnone, he.symm⟩

/-- A value that is asked to be of a kind fails as it comes about, or because it is not. -/
theorem fails_of_conformed {k : Kind} {span : Span} {x : Run Value}
    (h : (x >>= conform k span).Fails e) :
    x.Fails e ∨ ∃ v, x.Returns v ∧ v.coerce? k = none ∧
      e = .located (.kindMismatch k v.kind) span := by
  obtain hx | ⟨v, hv, h⟩ := h.of_bind
  · exact .inl hx
  · exact .inr ⟨v, hv, fails_of_conform h⟩

/-- Two operands fail one after the other, and the operation on their values never. -/
theorem failsItself_or_operand {x y : Term} {op : Value → Value → Value} (hx : x ∈ t.parts)
    (hy : y ∈ t.parts) (h : (guardDepth maxDepth depth t.span >>= fun _ => do
      let v ← x.evaluate evaluateFormula ctx maxDepth (depth + 1)
      let w ← y.evaluate evaluateFormula ctx maxDepth (depth + 1)
      pure (op v w)).Fails e) :
    FailsItself evaluateFormula ctx maxDepth depth t e ∨
      ∃ part ∈ t.parts, (part.evaluate evaluateFormula ctx maxDepth (depth + 1)).Fails e := by
  obtain hdeep | h := fails_of_guardDepth h
  · exact .inl hdeep
  · obtain h | ⟨_, -, h⟩ := h.of_bind
    · exact .inr ⟨x, hx, h⟩
    · obtain h | ⟨_, -, h⟩ := h.of_bind
      · exact .inr ⟨y, hy, h⟩
      · exact absurd h Evaluation.not_fails_pure

theorem fails_of_evaluateAll {args : List Term}
    (h : (evaluateAll evaluateFormula ctx maxDepth depth args).Fails e) :
    ∃ arg ∈ args, (arg.evaluate evaluateFormula ctx maxDepth depth).Fails e := by
  induction args with
  | nil => exact absurd h Evaluation.not_fails_pure
  | cons arg args ih =>
      rw [evaluateAll] at h
      obtain harg | ⟨v, -, h⟩ := h.of_bind
      · exact ⟨arg, List.mem_cons_self, harg⟩
      · obtain hargs | ⟨vs, -, h⟩ := h.of_bind
        · obtain ⟨other, hmem, hother⟩ := ih hargs
          exact ⟨other, List.mem_cons_of_mem _ hmem, hother⟩
        · exact absurd h Evaluation.not_fails_pure

/-- Where an evaluation fails: at the term itself, or in a part of it one level deeper. -/
theorem failsItself_or_part (h : (t.evaluate evaluateFormula ctx maxDepth depth).Fails e) :
    FailsItself evaluateFormula ctx maxDepth depth t e ∨
      ∃ part ∈ t.parts, (part.evaluate evaluateFormula ctx maxDepth (depth + 1)).Fails e := by
  cases t with
  | constant k span v =>
      rw [evaluate] at h
      obtain hdeep | h := fails_of_guardDepth (t := .constant k span v) h
      · exact .inl hdeep
      · exact absurd h Evaluation.not_fails_pure
  | attributeRef k span name =>
      rw [evaluate] at h
      obtain hdeep | h := fails_of_guardDepth (t := .attributeRef k span name) h
      · exact .inl hdeep
      · obtain h | ⟨v, hv, h⟩ := h.of_bind
        · obtain ⟨hnone, rfl⟩ := Evaluation.fails_ofOption.1 h
          exact .inl ⟨_, .noAttribute hnone, rfl⟩
        · obtain ⟨hcoerce, rfl⟩ := fails_of_conform h
          exact .inl ⟨_, .attributeKind (Evaluation.returns_ofOption.1 hv) hcoerce, rfl⟩
  | macroRef span name =>
      rw [evaluate] at h
      obtain hdeep | h := fails_of_guardDepth (t := .macroRef span name) h
      · exact .inl hdeep
      · obtain ⟨hnone, rfl⟩ := Evaluation.fails_ofOption.1 h
        exact .inl ⟨_, .noMacro (Option.map_eq_none_iff.1 hnone), rfl⟩
  | unary k span op x =>
      rw [evaluate] at h
      obtain hdeep | h := fails_of_guardDepth (t := .unary k span op x) h
      · exact .inl hdeep
      · obtain hx | ⟨_, -, h⟩ := h.of_bind
        · exact .inr ⟨x, by simp [parts], hx⟩
        · exact absurd h Evaluation.not_fails_pure
  | arithmetic k span op x y =>
      rw [evaluate] at h
      exact failsItself_or_operand (t := .arithmetic k span op x y) (.head _) (.tail _ (.head _)) h
  | comparison span op x y =>
      rw [evaluate] at h
      exact failsItself_or_operand (t := .comparison span op x y) (.head _) (.tail _ (.head _)) h
  | logical span op x y =>
      rw [evaluate] at h
      exact failsItself_or_operand (t := .logical span op x y) (.head _) (.tail _ (.head _)) h
  | conditional k span c x y =>
      rw [evaluate] at h
      obtain hdeep | h := fails_of_guardDepth (t := .conditional k span c x y) h
      · exact .inl hdeep
      · obtain hc | ⟨_, -, h⟩ := h.of_bind
        · exact .inr ⟨c, by simp [parts], hc⟩
        · split at h
          · obtain hx | ⟨v, hv, hcoerce, rfl⟩ := fails_of_conformed h
            · exact .inr ⟨x, by simp [parts], hx⟩
            · exact .inl ⟨_, .branchKind (.inl rfl) hv hcoerce, rfl⟩
          · obtain hy | ⟨v, hv, hcoerce, rfl⟩ := fails_of_conformed h
            · exact .inr ⟨y, by simp [parts], hy⟩
            · exact .inl ⟨_, .branchKind (.inr rfl) hv hcoerce, rfl⟩
          · exact absurd h Evaluation.not_fails_pure
  | call k span f args =>
      rw [evaluate] at h
      obtain hdeep | h := fails_of_guardDepth (t := .call k span f args) h
      · exact .inl hdeep
      · obtain hargs | ⟨values, hvalues, h⟩ := h.of_bind
        · exact .inr (fails_of_evaluateAll hargs)
        · obtain hbody | ⟨v, hv, hcoerce, rfl⟩ := fails_of_conformed h
          · obtain ⟨fault, hfault, rfl⟩ := Evaluation.fails_mapError.1 hbody
            exact .inl ⟨_, .body hvalues hfault, rfl⟩
          · have hv' := Evaluation.returns_mapError.1 hv
            exact .inl ⟨_, .resultKind hvalues hv' hcoerce, rfl⟩

/-- Whatever error the evaluation of a term ends with, one of its nodes is at fault and the
error names that node's place. -/
theorem blames_of_fails (h : (t.evaluate evaluateFormula ctx maxDepth depth).Fails e) :
    Blames evaluateFormula ctx maxDepth t e := by
  induction t using parts_induct generalizing depth with
  | node t ih =>
      obtain ⟨fault, hfault, he⟩ | ⟨part, hpart, h⟩ := failsItself_or_part h
      · exact ⟨t, depth, fault, .self, hfault, he⟩
      · obtain ⟨node, d, fault, hnode, hfault, he⟩ := ih part hpart h
        exact ⟨node, d, fault, .ofPart hpart hnode, hfault, he⟩

end Evaluating

end Term

end RowFormula
