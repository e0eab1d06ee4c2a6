/-
# Progress

What can still go wrong with kinds and attributes once a formula is compiled, if it runs on
rows with the declarations that it was compiled for.  Whatever a formula settles by itself
holds at run time: references have the kind that is declared, the branches of a conditional
can be converted to the kind in which they meet, and functions return what their rule gives.
A formula or an attribute that is looked up by a constant text is the one that was looked at
while the formula was compiled.  Only where a formula states the kind of something that it
looks up, the statement can turn out wrong.
-/

import RowFormula.Proofs.Folding
import RowFormula.Proofs.Reentry

namespace RowFormula

/-! ### Conversions that always succeed -/

namespace Value

theorem exists_coerce?_string (v : Value) : ∃ w, v.coerce? .string = some w := by
  unfold coerce?
  split
  · exact ⟨_, rfl⟩
  · split
    · exact ⟨_, rfl⟩
    · exact ⟨_, if_pos rfl⟩

theorem exists_coerce?_numeric {v : Value} {k : Kind} (hv : v.kind.isNumeric = true)
    (hk : k.isNumeric = true) : ∃ w, v.coerce? k = some w := by
  have hnumber : ∃ x, v.number? = some x := by
    cases v with
    | integer x => exact ⟨x, rfl⟩
    | double x => exact ⟨x, rfl⟩
    | _ => cases hv
  obtain ⟨x, hx⟩ := hnumber
  have hstring : k ≠ .string := by
    rintro rfl
    cases hk
  unfold coerce?
  rw [if_neg hstring, if_pos hk, hx]
  split
  · exact ⟨_, rfl⟩
  · split <;> exact ⟨_, rfl⟩

/-- A value can be converted to the kind in which its own meets another one. -/
theorem exists_coerce?_unify (v : Value) (k : Kind) : ∃ w, v.coerce? (v.kind.unify k) = some w := by
  unfold Kind.unify
  split
  · exact ⟨v, coerce?_self v⟩
  · split
    · rename_i hnumeric
      rw [Bool.and_eq_true] at hnumeric
      exact exists_coerce?_numeric hnumeric.1 rfl
    · exact exists_coerce?_string v

theorem exists_coerce?_branch {v : Value} {k l : Kind} (h : v.kind = k ∨ v.kind = l) :
    ∃ w, v.coerce? (k.unify l) = some w := by
  obtain rfl | rfl := h
  · exact exists_coerce?_unify v l
  · rw [Kind.unify_comm]
    exact exists_coerce?_unify v k

end Value

/-- A value of the right kind needs no conversion. -/
theorem Value.coerce?_ne_none {v : Value} {k : Kind} (h : v.kind = k) : v.coerce? k ≠ none := by
  rw [← h, coerce?_self]
  exact Option.some_ne_none v

theorem Row.exists_get?_of_kind? {r : Row} {name : String} {k : Kind} (h : r.kind? name = some k) :
    ∃ v, r.get? name = some v ∧ v.kind = k :=
  Option.map_eq_some_iff.1 h

/-- A fault that compiling is there to rule out: a value of another kind than was settled, an
attribute that is not there, or a nested formula that does not compile. -/
def EvaluationFault.isStatic : EvaluationFault → Bool
  | kindMismatch .. | unknownAttribute _ => true
  | nested _ (.unreadable _) | nested _ (.illTyped _) => true
  | _ => false

theorem EvaluationFault.isStatic_of_isLocal {fault : EvaluationFault}
    (h : fault.isLocal = true) : fault.isStatic = false := by
  cases fault with
  | unknownMacro | unknownParameter | rejected => rfl
  | _ => cases h

namespace Term

/-- A call that looks a formula or an attribute up and states the kind of what it finds. -/
def StatesKind : Term → Prop
  | call _ _ f args => (f.name = "eval" ∨ f.name = "attribute") ∧ args.length = 2
  | _ => False

/-- A reference to a macro or a call of a function. -/
def reachesOut : Term → Bool
  | macroRef .. | call .. => true
  | _ => false

section Nodes

variable {formulaKind : String → Except KindFault Kind}
variable {evaluateFormula : String → Evaluation EvaluationFault Value}
variable {ctx : Context} {maxDepth depth : Nat} {args : List Term} {values : List Value}

theorem exists_value_of_returns {position : Nat} {arg : Term}
    (h : (evaluateAll evaluateFormula ctx maxDepth depth args).Returns values)
    (harg : args[position]? = some arg) :
    ∃ v, values[position]? = some v ∧
      (arg.evaluate evaluateFormula ctx maxDepth depth).Returns v := by
  induction args generalizing position values with
  | nil => cases harg
  | cons first args ih =>
      rw [evaluateAll] at h
      obtain ⟨v, hv, h⟩ := h.of_bind
      obtain ⟨vs, hvs, h⟩ := h.of_bind
      obtain rfl := Evaluation.returns_pure.1 h
      cases position with
      | zero =>
          cases harg
          exact ⟨v, rfl, hv⟩
      | succ position =>
          obtain ⟨w, hw, hreturns⟩ := ih hvs harg
          exact ⟨w, hw, hreturns⟩

/-- A constant text among the arguments is what the body gets at that position. -/
theorem textAt?_of_constantText? {position : Nat} {text : String}
    (h : (evaluateAll evaluateFormula ctx maxDepth depth args).Returns values)
    (htext : (ctx.kindRequest formulaKind (infos args)).constantText? position = some text) :
    textAt? values position = some text := by
  simp only [KindRequest.constantText?, Context.kindRequest, infos, List.getElem?_map,
    bind, Option.bind_eq_some_iff, Option.map_eq_some_iff] at htext
  obtain ⟨_, ⟨arg, harg, rfl⟩, constant, hconstant, htext⟩ := htext
  obtain ⟨v, hv, hreturns⟩ := exists_value_of_returns h harg
  obtain ⟨k, span, rfl⟩ := eq_constant_of_constant? hconstant
  obtain rfl := Evaluation.returns_pure.1 (returns_of_guardDepth hreturns)
  simp [textAt?, hv, htext]

end Nodes

section Catalog

variable {ctx : Context} {k : Kind} {f : Function} {args : List Term} {values : List Value}
variable {maxDepth depth : Nat} {fault : EvaluationFault}

/-- A formula that is looked up without stating its kind is the one whose kind was found when
the call was resolved. -/
theorem isStatic_of_nestedFormula (hone : ¬ 1 < args.length)
    (hrule : Catalog.formulaResult
      (ctx.kindRequest (Formula.nestedKind ctx.levels ctx) (infos args)) = .ok k)
    (hvalues : (evaluateAll (Formula.nestedValue ctx.levels ctx) ctx maxDepth depth args).Returns
      values)
    (hfails : (Catalog.nestedFormula.body
      (ctx.call (Formula.nestedValue ctx.levels ctx) f k) values).Fails fault) :
    fault.isStatic = false := by
  obtain ⟨text, htext, hkind⟩ :=
    Catalog.formulaResult_eq_ok hrule (by simpa [Context.kindRequest, infos] using hone)
  have hknown := Formula.nestedValue_ensures hkind
  obtain ⟨text', htext', hfound⟩ := Catalog.nestedFormula_ensures.2 fault hfails
  rw [textAt?_of_constantText? hvalues htext] at htext'
  obtain rfl := Option.some.inj htext'
  obtain hformula | ⟨v, hv, hcoerce, -⟩ := hfound
  · obtain ⟨e, rfl⟩ := hknown.2 fault hformula
    rfl
  · exact absurd hcoerce (Value.coerce?_ne_none (hknown.1 v hv))

/-- An attribute that is looked up without stating its kind is the one whose kind was found
when the call was resolved. -/
theorem not_fails_of_attributeByName {formulaKind : String → Except KindFault Kind}
    {evaluateFormula : String → Evaluation EvaluationFault Value} (hone : ¬ 1 < args.length)
    (hrule : Catalog.attributeResult (ctx.kindRequest formulaKind (infos args)) = .ok k)
    (hvalues : (evaluateAll evaluateFormula ctx maxDepth depth args).Returns values) :
    ¬ (Catalog.attributeByName.body (ctx.call evaluateFormula f k) values).Fails fault := by
  intro hfails
  obtain ⟨name, hname, hkind⟩ :=
    Catalog.attributeResult_eq_ok hrule (by simpa [Context.kindRequest, infos] using hone)
  obtain ⟨v, hv, hk⟩ := Row.exists_get?_of_kind? hkind
  obtain ⟨name', hname', hfound⟩ := Catalog.attributeByName_ensures.2 fault hfails
  rw [textAt?_of_constantText? hvalues hname] at hname'
  obtain rfl := Option.some.inj hname'
  obtain ⟨hnone, -⟩ | ⟨w, hw, hcoerce, -⟩ := hfound
  · rw [hv] at hnone
    cases hnone
  · obtain rfl := Option.some.inj (hv.symm.trans hw)
    exact absurd hcoerce (Value.coerce?_ne_none hk)

theorem length_of_lookup
    (h : (Signature.optionalAfter 1 [.single .string, .single .string]).arity.accepts
      args.length = true) (htwo : args.length ≠ 2) : ¬ 1 < args.length := by
  simp only [Signature.optionalAfter, Arity.accepts, Bool.and_eq_true, decide_eq_true_eq,
    List.length_cons, List.length_nil] at h
  omega

section Calls

variable {span : Span} {v : Value}

/-- A function of the catalog returns what its rule gave when the call was resolved. -/
theorem kind_of_body {formulaKind : String → Except KindFault Kind}
    {evaluateFormula : String → Evaluation EvaluationFault Value}
    (hcatalog : ctx.functions = Catalog.registry)
    (hkinded : (Term.call k span f args).WellKinded)
    (hresolved : (Term.call k span f args).ResolvedIn formulaKind ctx)
    (hvalues : (evaluateAll evaluateFormula ctx maxDepth depth args).Returns values)
    (hv : (f.body (ctx.call evaluateFormula f k) values).Returns v) : v.kind = k := by
  obtain ⟨⟨name, hname⟩, hrule⟩ := hresolved
  rw [hcatalog] at hname
  obtain hregular | ⟨serial, rfl | rfl⟩ := Catalog.of_get?_registry hname
  · have haccepts := hkinded.accepts_of_returns hvalues
    exact (hregular.outcome ctx _ k values).1 v hv ⟨_, hrule⟩ haccepts
  · exact Catalog.nestedFormula_ensures.1 v hv
  · exact Catalog.attributeByName_ensures.1 v hv

/-- Of the functions of the catalog, only the two that look formulas and attributes up can
have a fault that compiling rules out, and only if the kind is stated. -/
theorem statesKind_of_body (hcatalog : ctx.functions = Catalog.registry)
    (hkinded : (Term.call k span f args).WellKinded)
    (hresolved : (Term.call k span f args).ResolvedIn (Formula.nestedKind ctx.levels ctx) ctx)
    (hvalues : (evaluateAll (Formula.nestedValue ctx.levels ctx) ctx maxDepth depth args).Returns
      values)
    (hfails : (f.body (ctx.call (Formula.nestedValue ctx.levels ctx) f k) values).Fails fault)
    (hstatic : fault.isStatic = true) : (Term.call k span f args).StatesKind := by
  obtain ⟨⟨name, hname⟩, hrule⟩ := hresolved
  rw [hcatalog] at hname
  cases hkinded with
  | call hcount =>
      obtain hregular | ⟨serial, rfl | rfl⟩ := Catalog.of_get?_registry hname
      · have hlocal := (hregular.outcome ctx _ k values).2 fault hfails
        rw [EvaluationFault.isStatic_of_isLocal hlocal] at hstatic
        cases hstatic
      · by_contra hstates
        have hone := length_of_lookup hcount fun htwo => hstates ⟨.inl rfl, htwo⟩
        rw [isStatic_of_nestedFormula hone hrule hvalues hfails] at hstatic
        cases hstatic
      · by_contra hstates
        have hone := length_of_lookup hcount fun htwo => hstates ⟨.inr rfl, htwo⟩
        exact not_fails_of_attributeByName hone hrule hvalues hfails

end Calls

/-- What a node settles by itself holds at run time, in a context with the declarations that
it was resolved for.  Only calls that state the kind of what they look up can have a fault
that compiling rules out. -/
theorem Faults.statesKind (hcatalog : ctx.functions = Catalog.registry) {node : Term}
    (hkinded : node.WellKinded)
    (hresolved : node.ResolvedIn (Formula.nestedKind ctx.levels ctx) ctx)
    (h : Faults (Formula.nestedValue ctx.levels ctx) ctx maxDepth depth node fault)
    (hstatic : fault.isStatic = true) : node.StatesKind := by
  cases h with
  | tooDeep | noMacro => cases hstatic
  | noAttribute hnone =>
      obtain ⟨v, hv, -⟩ := Row.exists_get?_of_kind? hresolved
      rw [hnone] at hv
      cases hv
  | attributeKind hv hcoerce =>
      obtain ⟨w, hw, hkind⟩ := Row.exists_get?_of_kind? hresolved
      obtain rfl := Option.some.inj (hv.symm.trans hw)
      exact absurd hcoerce (Value.coerce?_ne_none hkind)
  | branchKind hbranch hv hcoerce =>
      rename_i k span c t e branch v
      cases hkinded with
      | conditional _ _ ht he =>
          have hkind : v.kind = t.kind ∨ v.kind = e.kind := by
            obtain rfl | rfl := hbranch
            · exact .inl (ht.kind_of_returns hv)
            · exact .inr (he.kind_of_returns hv)
          obtain ⟨w, hw⟩ := Value.exists_coerce?_branch hkind
          rw [hcoerce] at hw
          cases hw
  | body hvalues hfails =>
      exact statesKind_of_body hcatalog hkinded hresolved hvalues hfails hstatic
  | resultKind hvalues hv hcoerce =>
      have hkind := kind_of_body hcatalog hkinded hresolved hvalues hv
      exact absurd hcoerce (Value.coerce?_ne_none hkind)

end Catalog

/-- In the context, and with the limit on the depth that it sets, the node itself can have
the fault. -/
def CanFault (ctx : Context) (node : Term) (fault : EvaluationFault) : Prop :=
  ∃ depth, Faults (Formula.nestedValue ctx.levels ctx) ctx ctx.options.maxDepth depth node fault

section Plain

variable {formulaKind : String → Except KindFault Kind}
variable {evaluateFormula : String → Evaluation EvaluationFault Value} {ctx : Context}
variable {maxDepth depth : Nat} {t : Term}

theorem height_lt_of_mem_parts {part : Term} (h : part ∈ t.parts) : part.height < t.height := by
  cases t with
  | constant | attributeRef | macroRef => cases h
  | unary k span op x =>
      obtain rfl := List.mem_singleton.1 h
      exact Nat.lt_succ_self _
  | arithmetic k span op x y | comparison span op x y | logical span op x y =>
      simp only [parts, List.mem_cons, List.not_mem_nil, or_false] at h
      rw [height]
      obtain rfl | rfl := h <;> omega
  | conditional k span c x y =>
      simp only [parts, List.mem_cons, List.not_mem_nil, or_false] at h
      rw [height]
      obtain rfl | rfl | rfl := h <;> omega
  | call k span f args =>
      rw [height]
      exact Nat.lt_succ_of_le (height_le_heights h)

/-- A node that reaches for nothing outside of the row has a value if its parts have. -/
theorem WellKinded.evaluate_node (ht : t.WellKinded) (hresolved : t.ResolvedIn formulaKind ctx)
    (hplain : t.reachesOut = false) (hdepth : depth < maxDepth)
    (hparts : ∀ part ∈ t.parts,
      ∃ v, part.evaluate evaluateFormula ctx maxDepth (depth + 1) = pure v) :
    ∃ v, t.evaluate evaluateFormula ctx maxDepth depth = pure v := by
  cases ht with
  | constant => exact ⟨_, evaluate_constant hdepth⟩
  | attributeRef =>
      obtain ⟨v, hv, rfl⟩ := Row.exists_get?_of_kind? hresolved
      refine ⟨v, ?_⟩
      rw [evaluate, guardDepth_of_lt hdepth, pure_bind, attributeValue, hv]
      show conform v.kind _ v = pure v
      rw [conform, Value.coerce?_self, Evaluation.ofOption]
  | macroRef | call => cases hplain
  | @unary k span op x _ _ =>
      obtain ⟨v, hv⟩ := hparts x (by simp [parts])
      refine ⟨Value.unary op v, ?_⟩
      rw [evaluate, guardDepth_of_lt hdepth, hv, pure_bind, pure_bind]
  | @arithmetic k span op x y _ _ _ =>
      obtain ⟨v, hv⟩ := hparts x (by simp [parts])
      obtain ⟨w, hw⟩ := hparts y (by simp [parts])
      refine ⟨Value.arithmetic op k v w, ?_⟩
      rw [evaluate, guardDepth_of_lt hdepth, hv, hw, pure_bind, pure_bind, pure_bind]
  | @comparison span op x y _ _ _ =>
      obtain ⟨v, hv⟩ := hparts x (by simp [parts])
      obtain ⟨w, hw⟩ := hparts y (by simp [parts])
      refine ⟨Value.ofBool (Value.compare op v w), ?_⟩
      rw [evaluate, guardDepth_of_lt hdepth, hv, hw, pure_bind, pure_bind, pure_bind]
  | @logical span op x y _ _ _ _ =>
      obtain ⟨v, hv⟩ := hparts x (by simp [parts])
      obtain ⟨w, hw⟩ := hparts y (by simp [parts])
      refine ⟨Value.logical op v w, ?_⟩
      rw [evaluate, guardDepth_of_lt hdepth, hv, hw, pure_bind, pure_bind, pure_bind]
  | @conditional span c x y _ _ hx hy =>
      obtain ⟨u, hu⟩ := hparts c (by simp [parts])
      obtain ⟨v, hv⟩ := hparts x (by simp [parts])
      obtain ⟨w, hw⟩ := hparts y (by simp [parts])
      have hkind : v.kind = x.kind :=
        hx.kind_of_returns (hv ▸ Evaluation.returns_pure.2 rfl)
      have hkind' : w.kind = y.kind :=
        hy.kind_of_returns (hw ▸ Evaluation.returns_pure.2 rfl)
      obtain ⟨v', hv'⟩ := Value.exists_coerce?_branch (l := y.kind) (.inl hkind)
      obtain ⟨w', hw'⟩ := Value.exists_coerce?_branch (k := x.kind) (.inr hkind')
      rw [evaluate, guardDepth_of_lt hdepth, pure_bind, hu, pure_bind]
      split
      · exact ⟨v', by rw [hv, pure_bind, conform, hv', Evaluation.ofOption]⟩
      · exact ⟨w', by rw [hw, pure_bind, conform, hw', Evaluation.ofOption]⟩
      · exact ⟨_, rfl⟩

/-- A term that reaches for nothing outside of the row has a value in every context with the
declarations that it was resolved for, if the limit on the depth admits the whole term. -/
theorem WellKinded.evaluate_eq_pure (ht : t.WellKinded)
    (hresolved : ∀ node, t.HasNode node → node.ResolvedIn formulaKind ctx)
    (hplain : ∀ node, t.HasNode node → node.reachesOut = false)
    (hdepth : depth + t.height ≤ maxDepth) :
    ∃ v, t.evaluate evaluateFormula ctx maxDepth depth = pure v := by
  induction t using parts_induct generalizing depth with
  | node t ih =>
      have hheight := t.height_pos
      refine ht.evaluate_node (hresolved t .self) (hplain t .self) (by omega) ?_
      intro part hpart
      have hsmaller := height_lt_of_mem_parts hpart
      exact ih part hpart (ht.of_mem_parts hpart)
        (fun node hnode => hresolved node (.ofPart hpart hnode))
        (fun node hnode => hplain node (.ofPart hpart hnode)) (by omega)

end Plain

end Term

namespace Formula

variable {ctx : Context}

/-- A fault that compiling rules out is that of a node which states a kind. -/
theorem statesKind_of_fails (hcatalog : ctx.functions = Catalog.registry) {f : Formula}
    (hf : compile ctx f.source = .ok f) {e : EvaluationError} (hfails : (f.run ctx).Fails e)
    (hstatic : e.fault.isStatic = true) :
    ∃ node, f.term.HasNode node ∧ node.StatesKind ∧ node.CanFault ctx e.fault ∧
      e = .mk e.fault (some node.span) (some f.source) := by
  obtain ⟨node, depth, fault, hnode, hfault, rfl⟩ := fails_runWithin hfails
  obtain ⟨tree, -, hterm, -⟩ := compileWith_eq_ok hf
  have hkinded := (Term.wellKinded_ofTree hterm).of_hasNode hnode
  have hresolved := Term.resolvedIn_ofTree hterm node hnode
  exact ⟨node, hnode, hfault.statesKind hcatalog hkinded hresolved hstatic, ⟨depth, hfault⟩, rfl⟩

/-- At whatever level it is found, such a fault is that of a node in the formula there, as the
formula compiles in the context of its level. -/
theorem statesKind_of_within (hcatalog : ctx.functions = Catalog.registry) {f : Formula}
    (hf : compile ctx f.source = .ok f) {e₀ e : EvaluationError} {n : Nat}
    (hfails : (f.run ctx).Fails e₀) (hn : (Error.failed e₀).within? n = some e)
    (hstatic : e.fault.isStatic = true) :
    ∃ g node, (n = 0 → g = f) ∧ compile (ctx.nestedBy n) g.source = .ok g ∧
      g.term.HasNode node ∧ node.StatesKind ∧ node.CanFault (ctx.nestedBy n) e.fault ∧
      e = .mk e.fault (some node.span) (some g.source) := by
  cases n with
  | zero =>
      obtain rfl := Option.some.inj hn
      obtain ⟨node, hnode⟩ := statesKind_of_fails hcatalog hf hfails hstatic
      exact ⟨f, node, fun _ => rfl, hf, hnode⟩
  | succ n =>
      have hfunctions : ctx.functions.PassesOn := hcatalog ▸ Catalog.registry_passesOn
      obtain ⟨-, g, hg, hrun⟩ :=
        fails_of_within hfunctions (passesOn_of_compile hfunctions hf) hfails hn
      obtain ⟨node, hnode⟩ := @statesKind_of_fails (ctx.nestedBy (n + 1)) hcatalog g hg e hrun
        hstatic
      exact ⟨g, node, nofun, hg, hnode⟩

/-- Formulas of the catalog make progress on every row with the declarations that they were
compiled for.  A value of the wrong kind, an attribute that is not there or a nested formula
that does not compile is always the fault of a call that looks a formula or an attribute up
and states its kind: of one in the formula itself, or of one in the formula that is evaluated
so many levels further in.  A formula without macros and calls always has a value. -/
theorem progress {engine : Engine} (hcatalog : engine.functions = Catalog.registry) {r s : Row}
    (hsame : r.SameKinds s) {now later : Calendar.Instant} {source : String} {f : Formula}
    (h : compile (engine.context now r) source = .ok f) :
    (∀ e₀, (f.run (engine.context later s)).Fails e₀ →
      ∀ n e, (Error.failed e₀).within? n = some e → e.fault.isStatic = true →
      ∃ g node, (n = 0 → g = f) ∧
        compile ((engine.context later s).nestedBy n) g.source = .ok g ∧
        g.term.HasNode node ∧ node.StatesKind ∧
        node.CanFault ((engine.context later s).nestedBy n) e.fault ∧
        e = .mk e.fault (some node.span) (some g.source)) ∧
    ((∀ node, f.term.HasNode node → node.reachesOut = false) →
      ∀ maxDepth, f.term.height ≤ maxDepth →
      ∃ v, f.runWithin maxDepth (engine.context later s) = pure v) := by
  have hrows : (engine.context now r).SameDeclarations (engine.context later s) :=
    ⟨rfl, rfl, hsame.symm, rfl, rfl⟩
  have hfunctions : (engine.context now r).functions.IgnoresValues := by
    show engine.functions.IgnoresValues
    exact hcatalog ▸ Catalog.registry_ignoresValues
  have hlater : compile (engine.context later s) source = .ok f := by
    rw [compile_eq hrows hfunctions, h]
  obtain ⟨tree, -, hterm, rfl⟩ := compileWith_eq_ok hlater
  constructor
  · intro e₀ hfails n e hn hstatic
    exact statesKind_of_within hcatalog hlater hfails hn hstatic
  · intro hplain maxDepth hheight
    have hdepth : 0 + f.term.height ≤ maxDepth := by omega
    obtain ⟨v, hv⟩ := (Term.wellKinded_ofTree hterm).evaluate_eq_pure
      (Term.resolvedIn_ofTree hterm) hplain hdepth
    exact ⟨v, by rw [runWithin, runWith, hv]; rfl⟩

/-- The nested formula states the kind of an attribute that only the first row has.  A
formula without calls finds a value in the second row, too. -/
theorem progress_of_stated_kind :
    let ctx := ({} : Engine).context ⟨0, 0⟩ (Row.ofList [("name", .ofString "name")])
    let later := ({} : Engine).context ⟨9, 0⟩ (Row.ofList [("name", .ofString "other")])
    (∃ f e₀ e, compile ctx "eval(\"attribute(name, TEXT)\", TEXT)" = .ok f ∧
      (f.run later).Fails e₀ ∧ (Error.failed e₀).within? 1 = some e ∧ e.fault.isStatic = true ∧
      ∃ g node, compile (later.nestedBy 1) g.source = .ok g ∧ g.term.HasNode node ∧
        node.StatesKind ∧ e = .mk e.fault (some node.span) (some g.source)) ∧
    ∃ f v, compile ctx "name + 1" = .ok f ∧ f.runWithin 2 later = pure v := by
  intro ctx later
  have hsame : Row.SameKinds (Row.ofList [("name", .ofString "name")])
      (Row.ofList [("name", .ofString "other")]) :=
    @Row.sameKinds_set _ _ "name" (.ofString "other") rfl
  constructor
  · have hcheck : ((compile ctx "eval(\"attribute(name, TEXT)\", TEXT)").toOption.any fun f =>
        ((f.run later).failure? default).any fun e₀ =>
          ((Error.failed e₀).within? 1).any fun e => e.fault.isStatic) = true := by
      decide +kernel
    obtain ⟨f, hf, hrun⟩ := (Option.any_eq_true _ _).1 hcheck
    have hcompile := toOption_eq_some_iff.1 hf
    obtain ⟨e₀, he₀, hinner⟩ := (Option.any_eq_true _ _).1 hrun
    obtain ⟨e, he, hstatic⟩ := (Option.any_eq_true _ _).1 hinner
    have hfails : (f.run later).Fails e₀ := Evaluation.fails_of_failure? he₀
    obtain ⟨g, node, -, hg, hnode, hstates, -, hplace⟩ :=
      (progress rfl hsame hcompile).1 e₀ hfails 1 e he hstatic
    exact ⟨f, e₀, e, hcompile, hfails, he, hstatic, g, node, hg, hnode, hstates, hplace⟩
  · have hcheck : ((compile ctx "name + 1").toOption.any fun f =>
        f.term.all (fun node => node.reachesOut == false) && decide (f.term.height ≤ 2)) =
        true := by
      decide +kernel
    obtain ⟨f, hf, hshape⟩ := (Option.any_eq_true _ _).1 hcheck
    obtain ⟨hnodes, hheight⟩ := Bool.and_eq_true_iff.1 hshape
    have hcompile := toOption_eq_some_iff.1 hf
    have hplain : ∀ node, f.term.HasNode node → node.reachesOut = false :=
      fun node hnode => eq_of_beq (hnode.of_all hnodes)
    obtain ⟨v, hv⟩ := (progress rfl hsame hcompile).2 hplain 2 (of_decide_eq_true hheight)
    exact ⟨f, v, hcompile, hv⟩

end Formula

end RowFormula
