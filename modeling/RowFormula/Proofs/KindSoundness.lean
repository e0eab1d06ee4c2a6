/-
# Kind soundness

The kind that a formula declares is the kind of every value it can give.  The rows it runs
against need not be those it was compiled for: an attribute may be gone or may have become
one of another kind, and the body of a function may return whatever it likes.  What holds
the kinds together is that attributes and results of functions are converted on the way in
and that every operation on values has a result of the kind of its node.
-/

import RowFormula.Proofs.WellKinded

namespace RowFormula

namespace Term

/-- The operands, branches or arguments of a term. -/
def parts : Term → List Term
  | constant _ _ _ => []
  | attributeRef _ _ _ => []
  | macroRef _ _ => []
  | unary _ _ _ x => [x]
  | arithmetic _ _ _ x y => [x, y]
  | comparison _ _ x y => [x, y]
  | logical _ _ x y => [x, y]
  | conditional _ _ c t e => [c, t, e]
  | call _ _ _ args => args

/-- The nodes of a term: the term itself and the nodes of its parts. -/
inductive HasNode : Term → Term → Prop
  | self {t : Term} : HasNode t t
  | ofPart {t part node : Term} : part ∈ t.parts → HasNode part node → HasNode t node

/-- The function that a node calls. -/
def function? : Term → Option Function
  | call _ _ f _ => some f
  | _ => none

theorem eq_call_of_function? {t : Term} {f : Function} (h : t.function? = some f) :
    ∃ k span args, t = .call k span f args := by
  cases t with
  | call k span g args => exact ⟨k, span, args, by rw [Option.some.inj h]⟩
  | _ => cases h

/-- The attribute that a node reads. -/
def attribute? : Term → Option String
  | attributeRef _ _ name => some name
  | _ => none

mutual

/-- Whether all nodes of a term pass a test. -/
def all (test : Term → Bool) : Term → Bool
  | constant k span v => test (constant k span v)
  | attributeRef k span name => test (attributeRef k span name)
  | macroRef span name => test (macroRef span name)
  | unary k span op x => test (unary k span op x) && all test x
  | arithmetic k span op x y => test (arithmetic k span op x y) && all test x && all test y
  | comparison span op x y => test (comparison span op x y) && all test x && all test y
  | logical span op x y => test (logical span op x y) && all test x && all test y
  | conditional k span c t e =>
    test (conditional k span c t e) && all test c && all test t && all test e
  | call k span f args => test (call k span f args) && allOf test args

def allOf (test : Term → Bool) : List Term → Bool
  | [] => true
  | t :: ts => all test t && allOf test ts

end

theorem allOf_iff {test : Term → Bool} {ts : List Term} :
    allOf test ts = true ↔ ∀ t ∈ ts, t.all test = true := by
  induction ts with
  | nil => exact ⟨fun _ => List.forall_mem_nil _, fun _ => rfl⟩
  | cons t ts ih => rw [allOf, Bool.and_eq_true, ih, List.forall_mem_cons]

theorem all_iff_parts {test : Term → Bool} {t : Term} :
    t.all test = true ↔ test t = true ∧ ∀ part ∈ t.parts, part.all test = true := by
  cases t <;> simp [all, parts, allOf_iff, and_assoc]

theorem HasNode.of_all {test : Term → Bool} {t node : Term} (hnode : t.HasNode node)
    (h : t.all test = true) : test node = true := by
  induction hnode with
  | self => exact (all_iff_parts.1 h).1
  | ofPart hpart _ ih => exact ih ((all_iff_parts.1 h).2 _ hpart)

theorem WellKinded.of_mem_parts {t part : Term} (ht : t.WellKinded) (hpart : part ∈ t.parts) :
    part.WellKinded := by
  cases ht with
  | constant | attributeRef | macroRef => cases hpart
  | unary _ hx =>
      obtain rfl := List.mem_singleton.1 hpart
      exact hx
  | arithmetic _ hx hy | comparison _ hx hy | logical _ _ hx hy =>
      simp only [parts, List.mem_cons, List.not_mem_nil, or_false] at hpart
      obtain rfl | rfl := hpart
      · exact hx
      · exact hy
  | conditional _ hc hx hy =>
      simp only [parts, List.mem_cons, List.not_mem_nil, or_false] at hpart
      obtain rfl | rfl | rfl := hpart
      · exact hc
      · exact hx
      · exact hy
  | call _ _ hargs => exact hargs part hpart

theorem WellKinded.of_hasNode {t node : Term} (ht : t.WellKinded) (hnode : t.HasNode node) :
    node.WellKinded := by
  induction hnode with
  | self => exact ht
  | ofPart hpart _ ih => exact ih (ht.of_mem_parts hpart)

theorem kind_of_conform {k : Kind} {span : Span} {v w : Value}
    (h : (conform k span v).Returns w) : w.kind = k :=
  Value.kind_of_coerce? (Evaluation.returns_ofOption.1 h)

section Evaluating

variable {evaluateFormula : String → Evaluation EvaluationFault Value} {ctx : Context}
variable {maxDepth : Nat}

/-- A guarded evaluation returns only what is behind the guard. -/
theorem returns_of_guardDepth {depth : Nat} {span : Span} {x : Run Value} {v : Value}
    (h : (guardDepth maxDepth depth span >>= fun _ => x).Returns v) : x.Returns v := by
  obtain ⟨_, -, hx⟩ := h.of_bind
  exact hx

theorem kind_of_attributeValue {k : Kind} {span : Span} {name : String} {v : Value}
    (h : (attributeValue ctx k span name).Returns v) : v.kind = k := by
  obtain ⟨_, -, hconform⟩ := h.of_bind
  exact kind_of_conform hconform

theorem kind_of_macroValue {span : Span} {name : String} {v : Value}
    (h : (macroValue ctx span name).Returns v) : v.kind = .string := by
  obtain ⟨s, -, rfl⟩ := Option.map_eq_some_iff.1 (Evaluation.returns_ofOption.1 h)
  rfl

theorem kind_of_apply {k : Kind} {span : Span} {f : Function} {args : List Value} {v : Value}
    (h : (apply evaluateFormula ctx k span f args).Returns v) : v.kind = k := by
  obtain ⟨_, -, hconform⟩ := h.of_bind
  exact kind_of_conform hconform

/-- The value of a well-kinded term has the kind of the term.  The induction is on the
rules of kinds; only an operator in front of its operand needs to know the kind of the
value below it, since all other nodes determine the kind of their value themselves. -/
theorem WellKinded.kind_of_returns {t : Term} (ht : t.WellKinded) {depth : Nat} {v : Value}
    (h : (t.evaluate evaluateFormula ctx maxDepth depth).Returns v) : v.kind = t.kind := by
  induction ht generalizing depth v with
  | constant hkind =>
      obtain rfl := Evaluation.returns_pure.1 (returns_of_guardDepth h)
      exact hkind
  | attributeRef => exact kind_of_attributeValue (returns_of_guardDepth h)
  | macroRef => exact kind_of_macroValue (returns_of_guardDepth h)
  | unary hkind _ ih =>
      obtain ⟨x, hx, h⟩ := (returns_of_guardDepth h).of_bind
      obtain rfl := Evaluation.returns_pure.1 h
      rw [← ih hx] at hkind
      exact Value.kind_unary hkind
  | arithmetic hkind =>
      obtain ⟨x, -, h⟩ := (returns_of_guardDepth h).of_bind
      obtain ⟨y, -, h⟩ := h.of_bind
      obtain rfl := Evaluation.returns_pure.1 h
      exact Value.kind_arithmetic hkind x y
  | comparison =>
      obtain ⟨x, -, h⟩ := (returns_of_guardDepth h).of_bind
      obtain ⟨y, -, h⟩ := h.of_bind
      obtain rfl := Evaluation.returns_pure.1 h
      rfl
  | logical =>
      obtain ⟨x, -, h⟩ := (returns_of_guardDepth h).of_bind
      obtain ⟨y, -, h⟩ := h.of_bind
      obtain rfl := Evaluation.returns_pure.1 h
      exact Value.kind_logical _ x y
  | conditional =>
      obtain ⟨c, -, h⟩ := (returns_of_guardDepth h).of_bind
      split at h
      · obtain ⟨x, -, hconform⟩ := h.of_bind
        exact kind_of_conform hconform
      · obtain ⟨x, -, hconform⟩ := h.of_bind
        exact kind_of_conform hconform
      · obtain rfl := Evaluation.returns_pure.1 h
        exact Value.kind_missing _
  | call =>
      obtain ⟨values, -, h⟩ := (returns_of_guardDepth h).of_bind
      exact kind_of_apply h

end Evaluating

end Term

namespace Formula

theorem wellKinded_of_compile {ctx : Context} {source : String} {f : Formula}
    (h : compile ctx source = .ok f) : f.term.WellKinded := by
  obtain ⟨tree, -, hterm, -⟩ := compileWith_eq_ok h
  exact Term.wellKinded_ofTree hterm

/-- Whatever a compiled formula or a node of it evaluates to has the kind that was found
when the formula was compiled, in whatever context it is evaluated later. -/
theorem kind_sound {ctx : Context} {source : String} {f : Formula}
    (h : compile ctx source = .ok f) :
    (∀ node, f.term.HasNode node → ∀ evaluateFormula later maxDepth depth v,
      (node.evaluate evaluateFormula later maxDepth depth).Returns v → v.kind = node.kind) ∧
    (∀ later maxDepth v, (f.runWithin maxDepth later).Returns v → v.kind = f.kind) ∧
    ∀ later v, (f.run later).Returns v → v.kind = f.kind := by
  have hterm := wellKinded_of_compile h
  have hrun : ∀ later maxDepth v, (f.runWithin maxDepth later).Returns v → v.kind = f.kind := by
    intro later maxDepth v hv
    exact hterm.kind_of_returns (Evaluation.returns_mapError.1 hv)
  refine ⟨?_, hrun, fun later => hrun later _⟩
  intro node hnode evaluateFormula later maxDepth depth v hv
  exact (hterm.of_hasNode hnode).kind_of_returns hv

/-- A whole number was declared, and the row holds another number. -/
theorem kind_sound_of_other_row :
    ∃ f, compile { row := Row.ofList [("a", .integer 2)] } "if(a > 1, a, 0)" = .ok f ∧
      f.kind = .integer ∧
      (f.run { row := Row.ofList [("a", .double 2.5)] }).Returns (.integer 2.5) ∧
      ∀ later v, (f.run later).Returns v → v.kind = f.kind := by
  have hcheck : ((compile { row := Row.ofList [("a", .integer 2)] }
      "if(a > 1, a, 0)").toOption.any fun f => f.kind = .integer ∧
        ((f.run { row := Row.ofList [("a", .double 2.5)] }).outcome default).1.toOption =
          some (.integer 2.5)) = true := by
    decide +kernel
  obtain ⟨f, hf, hrun⟩ := (Option.any_eq_true _ _).1 hcheck
  obtain ⟨hkind, hvalue⟩ := of_decide_eq_true hrun
  have hcompile := toOption_eq_some_iff.1 hf
  exact ⟨f, hcompile, hkind, ⟨default, toOption_eq_some_iff.1 hvalue⟩,
    (kind_sound hcompile).2.2⟩

end Formula

end RowFormula
