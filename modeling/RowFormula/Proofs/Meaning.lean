/-
# Meaning without spans

Trees and terms remember where they were read, for the sake of errors.  Here all spans are
erased, from trees, from terms and from errors.  Resolving a tree and evaluating a term
commute with that: what spans there are makes no difference except for the places in errors.
So formulas that are read as trees of the same shape mean the same, however they are spaced
and whatever parentheses they have that change nothing.
-/

import RowFormula.Engine
import RowFormula.Proofs.Literals
import RowFormula.Proofs.RoundTrip

namespace RowFormula

namespace Tree

@[simp]
theorem allWithoutSpans_eq_map (ts : List Tree) : allWithoutSpans ts = ts.map withoutSpans := by
  induction ts with
  | nil => rfl
  | cons t ts ih => rw [allWithoutSpans, ih, List.map_cons]

theorem map_eq_of_sameShapes {ts us : List Tree}
    (heq : ∀ t ∈ ts, ∀ u ∈ us, t.sameShape u = true → t.withoutSpans = u.withoutSpans)
    (h : sameShapes ts us = true) : ts.map withoutSpans = us.map withoutSpans := by
  induction ts generalizing us with
  | nil =>
      cases us with
      | nil => rfl
      | cons => simp [sameShapes] at h
  | cons t ts ih =>
      cases us with
      | nil => simp [sameShapes] at h
      | cons u us =>
          rw [sameShapes, Bool.and_eq_true] at h
          have htail : ts.map withoutSpans = us.map withoutSpans := by
            refine ih (fun t ht u hu => ?_) h.2
            exact heq t (List.mem_cons_of_mem _ ht) u (List.mem_cons_of_mem _ hu)
          rw [List.map_cons, List.map_cons, htail,
            heq t List.mem_cons_self u List.mem_cons_self h.1]

/-- Trees that were read have the same shape only if they differ in nothing but spans. -/
theorem withoutSpans_eq_of_sameShape {t u : Tree} (ht : t.HasNumerals) (hu : u.HasNumerals)
    (h : t.sameShape u = true) : t.withoutSpans = u.withoutSpans := by
  induction t generalizing u with
  | integer x span =>
      cases u with
      | integer y span' =>
          have hx : (integer x span).IsDenoted := ht _ .self
          have hy : (integer y span').IsDenoted := hu _ .self
          exact congrArg (integer · ⟨0, 0⟩) (eq_of_denoted hx hy h)
      | _ => simp [sameShape] at h
  | float x span =>
      cases u with
      | float y span' =>
          have hx : (float x span).IsDenoted := ht _ .self
          have hy : (float y span').IsDenoted := hu _ .self
          exact congrArg (float · ⟨0, 0⟩) (eq_of_denoted hx hy h)
      | _ => simp [sameShape] at h
  | text s span =>
      cases u with
      | text s' => exact congrArg (text · ⟨0, 0⟩) (eq_of_beq h)
      | _ => simp [sameShape] at h
  | ident name span =>
      cases u with
      | ident name' => exact congrArg (ident · ⟨0, 0⟩) (eq_of_beq h)
      | _ => simp [sameShape] at h
  | attributeRef name span =>
      cases u with
      | attributeRef name' => exact congrArg (attributeRef · ⟨0, 0⟩) (eq_of_beq h)
      | _ => simp [sameShape] at h
  | macroRef name span =>
      cases u with
      | macroRef name' => exact congrArg (macroRef · ⟨0, 0⟩) (eq_of_beq h)
      | _ => simp [sameShape] at h
  | unary op span x ih =>
      cases u with
      | unary op' span' x' =>
          have hx : x.HasNumerals := ht.of_mem_parts (List.mem_singleton_self x)
          have hx' : x'.HasNumerals := hu.of_mem_parts (List.mem_singleton_self x')
          simp only [sameShape, Bool.and_eq_true, beq_iff_eq] at h
          obtain ⟨rfl, hoperand⟩ := h
          rw [withoutSpans, withoutSpans, ih hx hx' hoperand]
      | _ => simp [sameShape] at h
  | arithmetic op span x y ihx ihy =>
      cases u with
      | arithmetic op' span' x' y' =>
          obtain ⟨hx, hy⟩ := ht.operands rfl
          obtain ⟨hx', hy'⟩ := hu.operands rfl
          simp only [sameShape, Bool.and_eq_true, beq_iff_eq] at h
          obtain ⟨⟨rfl, hleft⟩, hright⟩ := h
          rw [withoutSpans, withoutSpans, ihx hx hx' hleft, ihy hy hy' hright]
      | _ => simp [sameShape] at h
  | comparison op span x y ihx ihy =>
      cases u with
      | comparison op' span' x' y' =>
          obtain ⟨hx, hy⟩ := ht.operands rfl
          obtain ⟨hx', hy'⟩ := hu.operands rfl
          simp only [sameShape, Bool.and_eq_true, beq_iff_eq] at h
          obtain ⟨⟨rfl, hleft⟩, hright⟩ := h
          rw [withoutSpans, withoutSpans, ihx hx hx' hleft, ihy hy hy' hright]
      | _ => simp [sameShape] at h
  | logical op span x y ihx ihy =>
      cases u with
      | logical op' span' x' y' =>
          obtain ⟨hx, hy⟩ := ht.operands rfl
          obtain ⟨hx', hy'⟩ := hu.operands rfl
          simp only [sameShape, Bool.and_eq_true, beq_iff_eq] at h
          obtain ⟨⟨rfl, hleft⟩, hright⟩ := h
          rw [withoutSpans, withoutSpans, ihx hx hx' hleft, ihy hy hy' hright]
      | _ => simp [sameShape] at h
  | call name span args ih =>
      cases u with
      | call name' span' args' =>
          simp only [sameShape, Bool.and_eq_true, beq_iff_eq] at h
          obtain ⟨rfl, hargs⟩ := h
          rw [withoutSpans, withoutSpans, allWithoutSpans_eq_map, allWithoutSpans_eq_map]
          refine congrArg (call name ⟨0, 0⟩) (map_eq_of_sameShapes (fun t hmem u hmem' => ?_) hargs)
          exact ih t hmem (ht.of_mem_parts hmem) (hu.of_mem_parts hmem')
      | _ => simp [sameShape] at h

theorem sameShapes_of_map_eq {ts us : List Tree}
    (hsame : ∀ t ∈ ts, ∀ {u : Tree}, t.withoutSpans = u.withoutSpans → t.sameShape u = true)
    (h : ts.map withoutSpans = us.map withoutSpans) : sameShapes ts us = true := by
  induction ts generalizing us with
  | nil =>
      obtain rfl := List.map_eq_nil_iff.1 h.symm
      rfl
  | cons t ts ih =>
      cases us with
      | nil => cases h
      | cons u us =>
          obtain ⟨hhead, htail⟩ := List.cons.inj h
          rw [sameShapes, hsame t List.mem_cons_self hhead,
            ih (fun t ht => hsame t (List.mem_cons_of_mem _ ht)) htail]
          rfl

/-- A tree that was read has the same shape as any that differs from it in nothing but spans. -/
theorem sameShape_of_withoutSpans_eq {t u : Tree} (ht : t.HasNumerals)
    (h : t.withoutSpans = u.withoutSpans) : t.sameShape u = true := by
  induction t generalizing u with
  | integer x span =>
      have hx : (integer x span).IsDenoted := ht _ .self
      cases u <;> cases h
      exact beq_self_of_denoted hx
  | float x span =>
      have hx : (float x span).IsDenoted := ht _ .self
      cases u <;> cases h
      exact beq_self_of_denoted hx
  | text | ident | attributeRef | macroRef =>
      cases u <;> cases h
      exact beq_self_eq_true _
  | unary op span x ih =>
      have hx := ht.of_mem_parts (List.mem_singleton_self x)
      cases u <;> simp only [withoutSpans, unary.injEq, reduceCtorEq] at h
      simp [sameShape, h, ih hx h.2.2]
  | arithmetic op span x y ihx ihy =>
      obtain ⟨hx, hy⟩ := ht.operands rfl
      cases u <;> simp only [withoutSpans, arithmetic.injEq, reduceCtorEq] at h
      simp [sameShape, h, ihx hx h.2.2.1, ihy hy h.2.2.2]
  | comparison op span x y ihx ihy =>
      obtain ⟨hx, hy⟩ := ht.operands rfl
      cases u <;> simp only [withoutSpans, comparison.injEq, reduceCtorEq] at h
      simp [sameShape, h, ihx hx h.2.2.1, ihy hy h.2.2.2]
  | logical op span x y ihx ihy =>
      obtain ⟨hx, hy⟩ := ht.operands rfl
      cases u <;> simp only [withoutSpans, logical.injEq, reduceCtorEq] at h
      simp [sameShape, h, ihx hx h.2.2.1, ihy hy h.2.2.2]
  | call name span args ih =>
      cases u <;> simp only [withoutSpans, call.injEq, reduceCtorEq] at h
      rw [allWithoutSpans_eq_map, allWithoutSpans_eq_map] at h
      have hargs := sameShapes_of_map_eq (fun t hmem => ih t hmem (ht.of_mem_parts hmem)) h.2.2
      simp [sameShape, h.1, hargs]

/-- What a text is read as does not depend on the limit. -/
theorem parse_unique {n m : Nat} {source : String} {t u : Tree} (ht : parse n source = .ok t)
    (hu : parse m source = .ok u) : t = u := by
  obtain ⟨c, hc, hreads⟩ := exists_reads_of_parse ht
  obtain ⟨c', hc', hreads'⟩ := exists_reads_of_parse hu
  obtain rfl := Except.ok.inj (hc.symm.trans hc')
  exact hreads.unique hreads'

end Tree

/-! ### Terms -/

namespace Term

mutual

/-- The same term with all spans at the start of the text. -/
def withoutSpans : Term → Term
  | constant k _ v => constant k ⟨0, 0⟩ v
  | attributeRef k _ name => attributeRef k ⟨0, 0⟩ name
  | macroRef _ name => macroRef ⟨0, 0⟩ name
  | unary k _ op x => unary k ⟨0, 0⟩ op (withoutSpans x)
  | arithmetic k _ op x y => arithmetic k ⟨0, 0⟩ op (withoutSpans x) (withoutSpans y)
  | comparison _ op x y => comparison ⟨0, 0⟩ op (withoutSpans x) (withoutSpans y)
  | logical _ op x y => logical ⟨0, 0⟩ op (withoutSpans x) (withoutSpans y)
  | conditional k _ c t e =>
    conditional k ⟨0, 0⟩ (withoutSpans c) (withoutSpans t) (withoutSpans e)
  | call k _ f args => call k ⟨0, 0⟩ f (allWithoutSpans args)

def allWithoutSpans : List Term → List Term
  | [] => []
  | t :: ts => withoutSpans t :: allWithoutSpans ts

end

@[simp]
theorem allWithoutSpans_eq_map (ts : List Term) : allWithoutSpans ts = ts.map withoutSpans := by
  induction ts with
  | nil => rfl
  | cons t ts ih => rw [allWithoutSpans, ih, List.map_cons]

@[simp]
theorem kind_withoutSpans (t : Term) : t.withoutSpans.kind = t.kind := by
  cases t <;> rfl

@[simp]
theorem span_withoutSpans (t : Term) : t.withoutSpans.span = ⟨0, 0⟩ := by
  cases t <;> rfl

@[simp]
theorem constant?_withoutSpans (t : Term) : t.withoutSpans.constant? = t.constant? := by
  cases t <;> rfl

theorem folded?_withoutSpans (t : Term) : t.withoutSpans.folded? = t.folded? := by
  cases t <;> simp [withoutSpans, folded?]

theorem fold_withoutSpans (t : Term) : t.withoutSpans.fold = t.fold.withoutSpans := by
  rw [fold, fold, folded?_withoutSpans, kind_withoutSpans, span_withoutSpans]
  cases t.folded? <;> rfl

theorem sameShapes_of_map_eq {ts us : List Term}
    (hsame : ∀ t ∈ ts, ∀ {u : Term}, t.withoutSpans = u.withoutSpans → t.sameShape u = true)
    (h : ts.map withoutSpans = us.map withoutSpans) : sameShapes ts us = true := by
  induction ts generalizing us with
  | nil =>
      obtain rfl := List.map_eq_nil_iff.1 h.symm
      rfl
  | cons t ts ih =>
      cases us with
      | nil => cases h
      | cons u us =>
          obtain ⟨hhead, htail⟩ := List.cons.inj h
          rw [sameShapes, hsame t List.mem_cons_self hhead,
            ih (fun t ht => hsame t (List.mem_cons_of_mem _ ht)) htail]
          rfl

/-- Terms that differ in nothing but spans have the same shape. -/
theorem sameShape_of_withoutSpans_eq {t u : Term} (h : t.withoutSpans = u.withoutSpans) :
    t.sameShape u = true := by
  induction t generalizing u with
  | constant k span v =>
      cases u <;> cases h
      simp [sameShape]
  | attributeRef k span name =>
      cases u <;> cases h
      simp [sameShape]
  | macroRef span name =>
      cases u <;> cases h
      simp [sameShape]
  | unary k span op x ih =>
      cases u <;> simp only [withoutSpans, unary.injEq, reduceCtorEq] at h
      simp [sameShape, h, ih h.2.2.2]
  | arithmetic k span op x y ihx ihy =>
      cases u <;> simp only [withoutSpans, arithmetic.injEq, reduceCtorEq] at h
      simp [sameShape, h, ihx h.2.2.2.1, ihy h.2.2.2.2]
  | comparison span op x y ihx ihy =>
      cases u <;> simp only [withoutSpans, comparison.injEq, reduceCtorEq] at h
      simp [sameShape, h, ihx h.2.2.1, ihy h.2.2.2]
  | logical span op x y ihx ihy =>
      cases u <;> simp only [withoutSpans, logical.injEq, reduceCtorEq] at h
      simp [sameShape, h, ihx h.2.2.1, ihy h.2.2.2]
  | conditional k span c x y ihc ihx ihy =>
      cases u <;> simp only [withoutSpans, conditional.injEq, reduceCtorEq] at h
      simp [sameShape, h, ihc h.2.2.1, ihx h.2.2.2.1, ihy h.2.2.2.2]
  | call k span f args ih =>
      cases u <;> simp only [withoutSpans, allWithoutSpans_eq_map, call.injEq, reduceCtorEq] at h
      simp [sameShape, h, sameShapes_of_map_eq ih h.2.2.2]

/-! ### Resolving -/

/-- A step of resolving without the place of its error. -/
def unplaced {α β : Type} (f : α → β) : Analysis α → Analysis β
  | .ok a => .ok (f a)
  | .error (.mk fault _ _) => .error (.mk fault "" ⟨0, 0⟩)

theorem unplaced_bind {α β γ δ : Type} {x : Analysis α} {f : α → β} {g : β → Analysis δ}
    {h : α → Analysis γ} {k : γ → δ} (hstep : ∀ a, g (f a) = unplaced k (h a)) :
    unplaced f x >>= g = unplaced k (x >>= h) := by
  cases x with
  | error e =>
      obtain ⟨fault, source, span⟩ := e
      rfl
  | ok a => exact hstep a

section Resolving

variable {formulaKind : String → Except KindFault Kind} {ctx : Context} {source : String}
variable {span : Span}

theorem ofAttribute_withoutSpans (unknown : TypeFault) (name : String) :
    ofAttribute ctx "" unknown name ⟨0, 0⟩ =
      unplaced withoutSpans (ofAttribute ctx source unknown name span) := by
  unfold ofAttribute
  cases ctx.row.kind? name <;> rfl

theorem ofIdent_withoutSpans (name : String) :
    ofIdent ctx "" name ⟨0, 0⟩ = unplaced withoutSpans (ofIdent ctx source name span) := by
  unfold ofIdent
  cases ctx.constants.get? name with
  | some value => rfl
  | none => exact ofAttribute_withoutSpans _ name

theorem ofUnary_withoutSpans (op : UnaryOp) (x : Term) :
    (ofUnary "" op ⟨0, 0⟩ x.withoutSpans >>= fun node => pure node.fold) =
      unplaced withoutSpans (ofUnary source op span x >>= fun node => pure node.fold) := by
  unfold ofUnary
  rw [kind_withoutSpans]
  cases unaryKind? op x.kind with
  | none => rfl
  | some k => exact congrArg Except.ok (fold_withoutSpans (unary k span op x))

theorem ofArithmetic_withoutSpans (op : ArithmeticOp) (x y : Term) :
    (ofArithmetic "" op ⟨0, 0⟩ x.withoutSpans y.withoutSpans >>= fun node => pure node.fold) =
      unplaced withoutSpans (ofArithmetic source op span x y >>= fun node => pure node.fold) := by
  unfold ofArithmetic
  rw [kind_withoutSpans, kind_withoutSpans]
  cases arithmeticKind? op x.kind y.kind with
  | none => rfl
  | some k => exact congrArg Except.ok (fold_withoutSpans (arithmetic k span op x y))

theorem ofComparison_withoutSpans (op : ComparisonOp) (x y : Term) :
    (ofComparison "" op ⟨0, 0⟩ x.withoutSpans y.withoutSpans >>= fun node => pure node.fold) =
      unplaced withoutSpans (ofComparison source op span x y >>= fun node => pure node.fold) := by
  unfold ofComparison
  rw [kind_withoutSpans, kind_withoutSpans]
  split
  · exact congrArg Except.ok (fold_withoutSpans (comparison span op x y))
  · rfl

theorem ofLogical_withoutSpans (op : LogicalOp) (x y : Term) :
    (ofLogical "" op ⟨0, 0⟩ x.withoutSpans y.withoutSpans >>= fun node => pure node.fold) =
      unplaced withoutSpans (ofLogical source op span x y >>= fun node => pure node.fold) := by
  unfold ofLogical
  rw [kind_withoutSpans, kind_withoutSpans]
  split
  · exact congrArg Except.ok (fold_withoutSpans (logical span op x y))
  · rfl

theorem ofConditional_withoutSpans (c t e : Term) :
    ofConditional ⟨0, 0⟩ c.withoutSpans t.withoutSpans e.withoutSpans =
      (ofConditional span c t e).withoutSpans := by
  rw [ofConditional, ofConditional, kind_withoutSpans, kind_withoutSpans,
    constant?_withoutSpans]
  cases c.constant? <;> rfl

theorem functionFor_withoutSpans (name : String) (count : Nat) :
    functionFor ctx "" name count ⟨0, 0⟩ =
      unplaced id (functionFor ctx source name count span) := by
  unfold functionFor
  cases ctx.functions.get? name with
  | none => rfl
  | some f =>
      dsimp only
      split <;> rfl

theorem misplaced?_withoutSpans (signature : Signature) (start : Nat) (args : List Term) :
    misplaced? signature start (args.map withoutSpans) =
      (misplaced? signature start args).map fun m => (m.1, m.2.withoutSpans) := by
  induction args generalizing start with
  | nil => rfl
  | cons arg args ih =>
      rw [List.map_cons, misplaced?, misplaced?, kind_withoutSpans, ih]
      split <;> rfl

theorem callKind_withoutSpans (name : String) (f : Function) (args : List Term) :
    callKind formulaKind ctx "" name ⟨0, 0⟩ f (args.map withoutSpans) =
      unplaced id (callKind formulaKind ctx source name span f args) := by
  unfold callKind
  rw [misplaced?_withoutSpans]
  cases misplaced? f.signature 0 args with
  | some m =>
      show fail "" (.argumentMismatch name m.1 _ m.2.withoutSpans.kind) m.2.withoutSpans.span = _
      rw [kind_withoutSpans, span_withoutSpans]
      rfl
  | none =>
      have hinfos : (args.map withoutSpans).map (fun arg => ArgInfo.mk arg.kind arg.constant?) =
          args.map fun arg => ⟨arg.kind, arg.constant?⟩ := by
        simp [Function.comp_def]
      dsimp only [Option.map_none]
      rw [hinfos]
      cases f.result.resolve (ctx.kindRequest formulaKind
        (args.map fun arg => ⟨arg.kind, arg.constant?⟩)) <;> rfl

theorem ofTrees_withoutSpans {trees : List Tree}
    (h : ∀ tree ∈ trees, ofTree formulaKind ctx "" tree.withoutSpans =
      unplaced withoutSpans (ofTree formulaKind ctx source tree)) :
    ofTrees formulaKind ctx "" (trees.map Tree.withoutSpans) =
      unplaced (List.map withoutSpans) (ofTrees formulaKind ctx source trees) := by
  induction trees with
  | nil => rfl
  | cons tree trees ih =>
      rw [List.map_cons, ofTrees, ofTrees, h tree List.mem_cons_self,
        ih fun t ht => h t (List.mem_cons_of_mem _ ht)]
      exact unplaced_bind fun x => unplaced_bind fun xs => rfl

theorem ofTree_conditional_of_length_ne {args : List Tree} (h : args.length ≠ 3) :
    ofTree formulaKind ctx source (.call conditionalName span args) =
      fail source (.arityMismatch conditionalName (.exact 3) args.length) span := by
  unfold ofTree
  rw [if_pos rfl]
  split
  · exact absurd rfl h
  · rfl

/-- Erasing the spans of a tree erases them in the result of resolving. -/
theorem ofTree_withoutSpans (tree : Tree) :
    ofTree formulaKind ctx "" tree.withoutSpans =
      unplaced withoutSpans (ofTree formulaKind ctx source tree) := by
  induction tree with
  | integer | float | text | macroRef => rfl
  | ident name span => exact ofIdent_withoutSpans name
  | attributeRef name span => exact ofAttribute_withoutSpans _ name
  | unary op span operand ih =>
      rw [Tree.withoutSpans, ofTree, ofTree, ih]
      exact unplaced_bind fun x => ofUnary_withoutSpans op x
  | arithmetic op span left right ihl ihr =>
      rw [Tree.withoutSpans, ofTree, ofTree, ihl, ihr]
      exact unplaced_bind fun x => unplaced_bind fun y => ofArithmetic_withoutSpans op x y
  | comparison op span left right ihl ihr =>
      rw [Tree.withoutSpans, ofTree, ofTree, ihl, ihr]
      exact unplaced_bind fun x => unplaced_bind fun y => ofComparison_withoutSpans op x y
  | logical op span left right ihl ihr =>
      rw [Tree.withoutSpans, ofTree, ofTree, ihl, ihr]
      exact unplaced_bind fun x => unplaced_bind fun y => ofLogical_withoutSpans op x y
  | call name span args ih =>
      rw [Tree.withoutSpans, Tree.allWithoutSpans_eq_map]
      by_cases hname : name = conditionalName
      · subst hname
        by_cases hlength : args.length = 3
        · obtain ⟨condition, whenTrue, whenFalse, rfl⟩ := List.length_eq_three.1 hlength
          rw [List.map_cons, List.map_cons, List.map_cons, List.map_nil, ofTree, ofTree,
            if_pos rfl, if_pos rfl, ih condition (by simp), ih whenTrue (by simp),
            ih whenFalse (by simp)]
          refine unplaced_bind fun c => ?_
          rw [kind_withoutSpans, span_withoutSpans, selected?, selected?, constant?_withoutSpans]
          by_cases htruthy : (!c.kind.isTruthy) = true
          · rw [if_pos htruthy, if_pos htruthy]
            rfl
          · rw [if_neg htruthy, if_neg htruthy]
            split
            · rfl
            · rfl
            · refine unplaced_bind fun t => unplaced_bind fun e => ?_
              exact congrArg Except.ok (ofConditional_withoutSpans c t e)
        · rw [ofTree_conditional_of_length_ne hlength, ofTree_conditional_of_length_ne,
            List.length_map]
          · rfl
          · rwa [List.length_map]
      · rw [ofTree_call hname, ofTree_call hname, List.length_map, ofTrees_withoutSpans ih,
          functionFor_withoutSpans]
        refine unplaced_bind fun f => unplaced_bind fun ts => ?_
        rw [ofCall, ofCall, id_eq, callKind_withoutSpans, ← allWithoutSpans_eq_map]
        exact unplaced_bind fun k => rfl

/-- Trees without spans decide what becomes of the trees themselves. -/
theorem ofTree_of_withoutSpans_eq {other : String} {t u : Tree}
    (h : t.withoutSpans = u.withoutSpans) :
    (∃ x y, ofTree formulaKind ctx source t = .ok x ∧ ofTree formulaKind ctx other u = .ok y ∧
      x.withoutSpans = y.withoutSpans) ∨
    ∃ fault span span', ofTree formulaKind ctx source t = .error (.mk fault source span) ∧
      ofTree formulaKind ctx other u = .error (.mk fault other span') := by
  have hsame : unplaced withoutSpans (ofTree formulaKind ctx source t) =
      unplaced withoutSpans (ofTree formulaKind ctx other u) := by
    rw [← ofTree_withoutSpans, ← ofTree_withoutSpans, h]
  cases hx : ofTree formulaKind ctx source t with
  | ok x =>
      rw [hx] at hsame
      cases hy : ofTree formulaKind ctx other u with
      | ok y =>
          rw [hy] at hsame
          exact .inl ⟨x, y, rfl, rfl, Except.ok.inj hsame⟩
      | error e =>
          obtain ⟨_, _, _, -, rfl⟩ := isFoundIn_of_ofTree hy
          rw [hy] at hsame
          cases hsame
  | error e =>
      obtain ⟨node, fault, -, -, rfl⟩ := isFoundIn_of_ofTree hx
      rw [hx] at hsame
      cases hy : ofTree formulaKind ctx other u with
      | ok y =>
          rw [hy] at hsame
          cases hsame
      | error e' =>
          obtain ⟨node', fault', -, -, rfl⟩ := isFoundIn_of_ofTree hy
          rw [hy] at hsame
          cases hsame
          exact .inr ⟨fault, node.span, node'.span, rfl, rfl⟩

end Resolving

/-! ### Evaluating

Each lemma says what a step comes to when only the fault of an error is kept. -/

section Evaluating

variable {evaluateFormula : String → Evaluation EvaluationFault Value} {ctx : Context}
variable {maxDepth depth : Nat} {k : Kind} {span : Span}

theorem guardDepth_fault :
    (guardDepth maxDepth depth span).mapError EvaluationError.fault =
      if maxDepth ≤ depth then throw (.depthExceeded (depth + 1) maxDepth) else pure () := by
  unfold guardDepth
  split <;> rfl

theorem conform_fault (v : Value) :
    (conform k span v).mapError EvaluationError.fault =
      Evaluation.ofOption (.kindMismatch k v.kind) (v.coerce? k) := by
  unfold conform
  cases v.coerce? k <;> rfl

theorem attributeValue_fault (name : String) :
    (attributeValue ctx k span name).mapError EvaluationError.fault =
      Evaluation.ofOption (.unknownAttribute name) (ctx.row.get? name) >>= fun v =>
        Evaluation.ofOption (.kindMismatch k v.kind) (v.coerce? k) := by
  unfold attributeValue
  cases ctx.row.get? name with
  | none => rfl
  | some v => exact conform_fault v

theorem macroValue_fault (name : String) :
    (macroValue ctx span name).mapError EvaluationError.fault =
      Evaluation.ofOption (.unknownMacro name) ((ctx.macros.get? name).map Value.ofString) := by
  unfold macroValue
  cases ctx.macros.get? name <;> rfl

theorem apply_fault (f : Function) (args : List Value) :
    (apply evaluateFormula ctx k span f args).mapError EvaluationError.fault =
      f.body (ctx.call evaluateFormula f k) args >>= fun v =>
        Evaluation.ofOption (.kindMismatch k v.kind) (v.coerce? k) := by
  rw [apply, Evaluation.mapError_bind, Evaluation.mapError_mapError]
  simp only [conform_fault]
  exact congrArg (· >>= _) (Evaluation.mapError_id _)

theorem evaluateAll_withoutSpans {ts : List Term}
    (h : ∀ t ∈ ts, (t.withoutSpans.evaluate evaluateFormula ctx maxDepth depth).mapError
        EvaluationError.fault =
      (t.evaluate evaluateFormula ctx maxDepth depth).mapError EvaluationError.fault) :
    (evaluateAll evaluateFormula ctx maxDepth depth (ts.map withoutSpans)).mapError
        EvaluationError.fault =
      (evaluateAll evaluateFormula ctx maxDepth depth ts).mapError EvaluationError.fault := by
  induction ts with
  | nil => rfl
  | cons t ts ih =>
      simp only [List.map_cons, evaluateAll, Evaluation.mapError_bind, h t List.mem_cons_self,
        ih fun u hu => h u (List.mem_cons_of_mem _ hu)]

/-- Erasing spans changes nothing that a term evaluates to but the places of errors. -/
theorem evaluate_withoutSpans (t : Term) :
    (t.withoutSpans.evaluate evaluateFormula ctx maxDepth depth).mapError EvaluationError.fault =
      (t.evaluate evaluateFormula ctx maxDepth depth).mapError EvaluationError.fault := by
  induction t generalizing depth with
  | constant => simp only [withoutSpans, evaluate, Evaluation.mapError_bind, guardDepth_fault]
  | attributeRef =>
      simp only [withoutSpans, evaluate, Evaluation.mapError_bind, guardDepth_fault,
        attributeValue_fault]
  | macroRef =>
      simp only [withoutSpans, evaluate, Evaluation.mapError_bind, guardDepth_fault,
        macroValue_fault]
  | unary k span op x ih =>
      simp only [withoutSpans, evaluate, Evaluation.mapError_bind, guardDepth_fault, ih]
  | arithmetic k span op x y ihx ihy =>
      simp only [withoutSpans, evaluate, Evaluation.mapError_bind, guardDepth_fault, ihx, ihy]
  | comparison span op x y ihx ihy =>
      simp only [withoutSpans, evaluate, Evaluation.mapError_bind, guardDepth_fault, ihx, ihy]
  | logical span op x y ihx ihy =>
      simp only [withoutSpans, evaluate, Evaluation.mapError_bind, guardDepth_fault, ihx, ihy]
  | conditional k span c x y ihc ihx ihy =>
      simp only [withoutSpans, evaluate, Evaluation.mapError_bind, guardDepth_fault, ihc]
      refine congrArg _ (funext fun _ => congrArg _ (funext fun v => ?_))
      split <;> simp only [Evaluation.mapError_bind, conform_fault, ihx, ihy]
  | call k span f args ih =>
      simp only [withoutSpans, evaluate, Evaluation.mapError_bind, guardDepth_fault, apply_fault,
        allWithoutSpans_eq_map, evaluateAll_withoutSpans fun arg harg => ih arg harg]

end Evaluating

end Term

/-! ### Formulas -/

namespace Formula

/-- The terms are equal without regard to spans.  In every context and with every limit both
run to the same value or fail with the same fault, and draw the same random numbers. -/
structure SameMeaning (f g : Formula) : Prop where
  sameShape : f.term.sameShape g.term = true
  runs : ∀ ctx maxDepth, (f.runWithin maxDepth ctx).mapError EvaluationError.fault =
    (g.runWithin maxDepth ctx).mapError EvaluationError.fault

/-- What became of two texts: formulas with the same meaning, or type errors with the same
fault, each somewhere in its own text. -/
inductive Alike (source other : String) : Except Error Formula → Except Error Formula → Prop
  | compiled {f g : Formula} (h : SameMeaning f g) : Alike source other (.ok f) (.ok g)
  | refused (fault : TypeFault) (span span' : Span) :
    Alike source other (.error (.illTyped (.mk fault source span)))
      (.error (.illTyped (.mk fault other span')))

/-- Resolves a tree that was read from a text. -/
def resolve (ctx : Context) (source : String) (tree : Tree) : Except Error Formula :=
  match Term.ofTree (nestedKind ctx.levels ctx) ctx source tree with
  | .error e => .error (.illTyped e)
  | .ok term => .ok ⟨source, term⟩

variable {ctx : Context} {source other : String} {t u : Tree}

/-- Compiling is reading and resolving. -/
theorem compile_of_parse (h : Tree.parse ctx.options.maxParseDepth source = .ok t) :
    compile ctx source = resolve ctx source t := by
  rw [compile, compileWith, h]
  rfl

theorem runWithin_fault (f : Formula) (maxDepth : Nat) :
    (f.runWithin maxDepth ctx).mapError EvaluationError.fault =
      (f.term.evaluate (nestedValue ctx.levels ctx) ctx maxDepth 0).mapError
        EvaluationError.fault := by
  rw [runWithin, runWith, Evaluation.mapError_mapError]
  refine congrArg (Evaluation.mapError · _) (funext fun e => ?_)
  cases e
  rfl

/-- A formula runs like any term that differs from its own in nothing but spans. -/
theorem runs_of_withoutSpans_eq {f : Formula} {x : Term}
    (h : f.term.withoutSpans = x.withoutSpans) (ctx : Context) (maxDepth : Nat) :
    (f.runWithin maxDepth ctx).mapError EvaluationError.fault =
      (x.evaluate (nestedValue ctx.levels ctx) ctx maxDepth 0).mapError
        EvaluationError.fault := by
  rw [runWithin_fault, ← Term.evaluate_withoutSpans, h, Term.evaluate_withoutSpans]

theorem sameMeaning_of_withoutSpans_eq {f g : Formula}
    (h : f.term.withoutSpans = g.term.withoutSpans) : SameMeaning f g where
  sameShape := Term.sameShape_of_withoutSpans_eq h
  runs ctx maxDepth := by
    rw [runs_of_withoutSpans_eq h, runWithin_fault]

theorem alike_of_withoutSpans_eq (h : t.withoutSpans = u.withoutSpans) :
    Alike source other (resolve ctx source t) (resolve ctx other u) := by
  obtain ⟨x, y, hx, hy, hsame⟩ | ⟨fault, span, span', ht, hu⟩ := Term.ofTree_of_withoutSpans_eq h
  · rw [resolve, resolve, hx, hy]
    exact .compiled (sameMeaning_of_withoutSpans_eq hsame)
  · rw [resolve, resolve, ht, hu]
    exact .refused fault span span'

end Formula

end RowFormula
