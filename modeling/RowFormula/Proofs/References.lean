/-
# References by name

An attribute or a macro is referred to directly, or by a function that is given its name as a text.
The direct reference is a node of its own; the function has a rule for its kind, converts the value
in its body, and its node converts it once more.  Both find the same, on every later row.

A reference is a single node and the call has its argument below it.  So under a limit of one the
call fails and the reference does not: that is the only limit on the depth that tells them apart.
-/

import RowFormula.Proofs.Limits
import RowFormula.Proofs.NamedOperators
import RowFormula.Proofs.Transparency

namespace RowFormula

/-! ### Reading -/

namespace Grammar

/-- A single token is read as its node, whatever the limit is, if the scan for parentheses lets it
pass. -/
theorem parse_word (w : Word) {maxDepth : Nat}
    (hscan : Tree.deepParenthesis? maxDepth {} 0 w.chars = none) :
    ∃ t, Tree.parse maxDepth (String.ofList w.chars) = .ok t ∧ t.withoutSpans = w.tree := by
  obtain ⟨p, hrecognize, hdraws⟩ := recognize_separated (.word w) .single
  obtain @⟨_, span⟩ := hdraws
  obtain ⟨t, ht, htree⟩ := @ofLeaf_word (String.ofList w.chars) span w
  rw [← @String.toList_ofList w.chars] at hscan hrecognize
  exact ⟨t, (Tree.parse_eq_ok_iff hscan).2 ⟨_, hrecognize, Tree.readsChain_bare (.leaf ht),
    .inl (Tree.isLeaf_of_ofLeaf ht)⟩, htree⟩

/-- A name in brackets passes the scan for parentheses. -/
theorem scan_attributeRef (name : { s : String // s ≠ "" }) (maxDepth : Nat) :
    Tree.deepParenthesis? maxDepth {} 0 (Word.attributeRef name).chars = none := by
  have hraises := Tree.raises_of_spellsLeaf (Word.attributeRef name).spellsLeaf nofun
  rw [Tree.deepParenthesis?_eq_none_iff (Nat.zero_le _)]
  exact Nat.le_trans (Nat.le_of_eq (hraises 0).2) (Nat.zero_le _)

end Grammar

namespace Tree

open Grammar

/-- The text of a call of a function with a text as its only argument. -/
def callText (function argument : String) : String :=
  String.ofList (quotedCall function.toList (escaped '"' argument.toList))

/-- The text of a reference to an attribute. -/
def attributeText (name : String) : String :=
  String.ofList ('[' :: escaped ']' name.toList ++ [']'])

/-- The text of a reference to a macro. -/
def macroText (name : String) : String :=
  String.ofList ('%' :: '\x7b' :: name.toList ++ ['\x7d'])

variable {maxDepth : Nat} {name : String}

theorem parse_callText {function : String} (hfunction : IsName function.toList)
    (hdepth : 2 ≤ maxDepth) :
    ∃ t, parse maxDepth (callText function name) = .ok t ∧
      t.withoutSpans = .call function ⟨0, 0⟩ [.text name ⟨0, 0⟩] := by
  obtain ⟨span, span', h⟩ := (quotes_escaped name).parse hfunction hdepth
  rw [String.ofList_toList] at h
  exact ⟨_, h, rfl⟩

theorem parse_attributeText (hname : name ≠ "") :
    ∃ t, parse maxDepth (attributeText name) = .ok t ∧
      t.withoutSpans = .attributeRef name ⟨0, 0⟩ :=
  parse_word (.attributeRef ⟨name, hname⟩) (scan_attributeRef _ _)

theorem parse_macroText (hname : IsMacroName name.toList)
    (hscan : deepParenthesis? maxDepth {} 0 (macroText name).toList = none) :
    ∃ t, parse maxDepth (macroText name) = .ok t ∧ t.withoutSpans = .macroRef name ⟨0, 0⟩ := by
  rw [macroText, String.toList_ofList] at hscan
  obtain ⟨t, ht, htree⟩ := parse_word (.macroRef ⟨name.toList, hname⟩) hscan
  rw [Word.tree, String.ofList_toList] at htree
  exact ⟨t, ht, htree⟩

end Tree

/-! ### The functions -/

namespace Catalog

/-- The kind of an attribute whose name is a constant is looked up. -/
theorem attributeResult_of_text {request : KindRequest} {name : String}
    (hargs : request.args.length = 1) (hname : request.constantText? 0 = some name) :
    attributeResult request =
      (request.attributeKind? name).elim (.error (.unknownAttribute name)) .ok := by
  simp only [attributeResult, hargs, hname, Nat.lt_irrefl, if_false]
  cases request.attributeKind? name <;> rfl

theorem attributeByName_body {call : Call} {name : String} :
    attributeByName.body call [.ofString name] =
      Evaluation.ofOption (.unknownAttribute name) (call.attribute? name) >>= call.coerce := rfl

theorem macroByName_body {call : Call} {name : String} :
    macroByName.body call [.ofString name] =
      Evaluation.ofOption (.unknownMacro name) ((call.macroText? name).map Value.ofString) := by
  have hname : textAt? [Value.ofString name] 0 = some name := rfl
  simp only [macroByName, hname]
  cases call.macroText? name <;> rfl

end Catalog

/-! ### Resolving and evaluating -/

namespace Term

section Evaluating

variable {evaluateFormula : String → Evaluation EvaluationFault Value} {ctx : Context}

/-- A value that was converted to a kind stays as it is when it is converted once more. -/
theorem coerce_coerce {k : Kind} {v : Value} {e : EvaluationFault} :
    (Evaluation.ofOption e (v.coerce? k) >>= fun w =>
        Evaluation.ofOption (.kindMismatch k w.kind) (w.coerce? k)) =
      Evaluation.ofOption e (v.coerce? k) := by
  cases h : v.coerce? k with
  | none => rfl
  | some w =>
      obtain rfl := Value.kind_of_coerce? h
      show Evaluation.ofOption _ (w.coerce? w.kind) = _
      rw [Value.coerce?_self]
      rfl

/-- A call whose argument is written out. -/
theorem unlimited_call_text {k : Kind} {span span' : Span} {f : Function} {text : String} :
    ((call k span f [ofValue span' (.ofString text)]).unlimited evaluateFormula ctx).mapError
        EvaluationError.fault =
      f.body (ctx.call evaluateFormula f k) [.ofString text] >>= fun v =>
        Evaluation.ofOption (.kindMismatch k v.kind) (v.coerce? k) := by
  exact apply_fault f [.ofString text]

theorem sameValue_attribute {k : Kind} {span span' span'' : Span} {serial : Nat} {name : String} :
    (call k span { Catalog.attributeByName with serial := serial }
      [ofValue span' (.ofString name)]).SameValue (attributeRef k span'' name) where
  kind := rfl
  value evaluateFormula ctx := by
    rw [unlimited_call_text, unlimited, attributeValue_fault]
    show Catalog.attributeByName.body _ [.ofString name] >>= _ = _
    rw [Catalog.attributeByName_body, bind_assoc]
    exact congrArg _ (funext fun v => coerce_coerce)

theorem sameValue_macro {span span' span'' : Span} {serial : Nat} {name : String} :
    (call .string span { Catalog.macroByName with serial := serial }
      [ofValue span' (.ofString name)]).SameValue (macroRef span'' name) where
  kind := rfl
  value evaluateFormula ctx := by
    rw [unlimited_call_text, unlimited, macroValue_fault]
    show Catalog.macroByName.body _ [.ofString name] >>= _ = _
    rw [Catalog.macroByName_body]
    show Evaluation.ofOption _ ((ctx.macros.get? name).map Value.ofString) >>= _ = _
    cases ctx.macros.get? name <;> rfl

/-- Nothing is evaluated at a depth that the limit does not admit. -/
theorem evaluate_fault_of_le {maxDepth depth : Nat} (h : maxDepth ≤ depth) (t : Term) :
    (t.evaluate evaluateFormula ctx maxDepth depth).mapError EvaluationError.fault =
      throw (.depthExceeded (depth + 1) maxDepth) := by
  have hguard : ∀ (span : Span) (x : Run Value),
      (guardDepth maxDepth depth span >>= fun _ => x).mapError EvaluationError.fault =
        throw (.depthExceeded (depth + 1) maxDepth) := by
    intro span x
    rw [guardDepth, if_pos h]
    rfl
  cases t <;> exact hguard _ _

end Evaluating

section Resolving

variable {formulaKind : String → Except KindFault Kind} {ctx : Context} {source name : String}
variable {span span' span'' : Span}

theorem ofTree_call_text {f : Function} (hf : ctx.functions.Has f)
    (hname : f.name ≠ conditionalName) (harity : f.signature.arity.accepts 1 = true) :
    ∃ serial, ofTree formulaKind ctx source (.call f.name span [.text name span']) =
      ofCall formulaKind ctx source f.name span { f with serial := serial }
        [ofValue span' (.ofString name)] := by
  obtain ⟨serial, hcall⟩ := @ofTree_call_of_has formulaKind ctx source span f [.text name span'] hf
    hname harity
  exact ⟨serial, hcall⟩

theorem paired_attribute (hf : ctx.functions.Has Catalog.attributeByName) :
    Paired (ofTree formulaKind ctx source (.call "attribute" span [.text name span']))
      (ofTree formulaKind ctx source (.attributeRef name span'')) := by
  obtain ⟨serial, hcall⟩ := @ofTree_call_text formulaKind ctx source name span span' _ hf
    (by decide) rfl
  have hmisplaced : misplaced? Catalog.attributeByName.signature 0
      [ofValue span' (.ofString name)] = none := misplaced?_single.2 rfl
  have hrule : Catalog.attributeByName.result.resolve (ctx.kindRequest formulaKind
      ([ofValue span' (.ofString name)].map fun arg => ⟨arg.kind, arg.constant?⟩)) =
        (ctx.row.kind? name).elim (.error (.unknownAttribute name)) .ok :=
    Catalog.attributeResult_of_text rfl rfl
  refine hcall ▸ ?_
  rw [ofTree, ofAttribute]
  cases hk : ctx.row.kind? name with
  | none =>
      rw [hk] at hrule
      rw [ofCall, callKind, hmisplaced]
      simp only [hrule]
      exact .refused _ _
  | some k =>
      rw [hk] at hrule
      refine paired_of_accepts ?_ ?_ sameValue_attribute
      · exact hmisplaced
      · exact hrule

theorem paired_macro (hf : ctx.functions.Has Catalog.macroByName) :
    Paired (ofTree formulaKind ctx source (.call "macro" span [.text name span']))
      (ofTree formulaKind ctx source (.macroRef name span'')) := by
  obtain ⟨serial, hcall⟩ := @ofTree_call_text formulaKind ctx source name span span' _ hf
    (by decide) rfl
  have hmisplaced : misplaced? Catalog.macroByName.signature 0
      [ofValue span' (.ofString name)] = none := misplaced?_single.2 rfl
  refine hcall ▸ ?_
  rw [ofTree]
  refine paired_of_accepts ?_ rfl sameValue_macro
  exact hmisplaced

end Resolving

end Term

/-! ### Agreement -/

namespace Formula

variable {ctx : Context} {source other name : String}

/-- The limit is not one, which admits a single node and nothing below it. -/
def NotOne (_ _ : Formula) (maxDepth : Nat) : Prop := maxDepth ≠ 1

/-- Formulas that are interchangeable where the limit admits both, and not higher than a call of a
single node, are interchangeable under every limit but one. -/
theorem Interchangeable.notOne {t u : Tree}
    (ht : Tree.parse ctx.options.maxParseDepth source = .ok t)
    (hu : Tree.parse ctx.options.maxParseDepth other = .ok u) (htheight : t.height ≤ 2)
    (huheight : u.height ≤ 2)
    (h : Interchangeable Admitted (compile ctx source) (compile ctx other)) :
    Interchangeable NotOne (compile ctx source) (compile ctx other) := by
  have hheight : ∀ {source t f}, Tree.parse ctx.options.maxParseDepth source = .ok t →
      t.height ≤ 2 → compile ctx source = .ok f → f.term.height ≤ 2 := by
    intro source t f ht hle hf
    obtain ⟨tree, htree, hterm, -⟩ := height_le_of_compile hf
    obtain rfl := Except.ok.inj (htree.symm.trans ht)
    exact Nat.le_trans hterm hle
  generalize hx : compile ctx source = x at h ⊢
  generalize hy : compile ctx other = y at h ⊢
  cases h with
  | refused e e' => exact .refused e e'
  | compiled hkind hruns =>
      refine .compiled hkind fun later maxDepth hne => ?_
      have hf := hheight ht htheight hx
      have hg := hheight hu huheight hy
      cases maxDepth with
      | zero =>
          rw [runWithin_fault, runWithin_fault, Term.evaluate_fault_of_le (Nat.le_refl 0),
            Term.evaluate_fault_of_le (Nat.le_refl 0)]
      | succ n =>
          have hlimit : 2 ≤ n + 1 := by
            have : n + 1 ≠ 1 := hne
            omega
          exact hruns later _ ⟨Nat.le_trans hf hlimit, Nat.le_trans hg hlimit⟩

/-- A reference to an attribute or a macro and the call of the function that is given its name are
interchangeable.  If the limit on the height of trees admits the call, both texts compile or neither
does.  They have the same kind, and in every later context they run to the same value or fail with
the same fault, also if the name has gone or has another kind, unless the limit on the depth is one.
Of macros this is said for names that a reference can hold and that pass the scan for parentheses,
which also looks at the names of macros. -/
theorem references_agree (hattribute : ctx.functions.Has Catalog.attributeByName)
    (hmacros : ctx.functions.Has Catalog.macroByName) (hparse : 2 ≤ ctx.options.maxParseDepth)
    (hname : name ≠ "") :
    Interchangeable NotOne (compile ctx (Tree.callText "attribute" name))
        (compile ctx (Tree.attributeText name)) ∧
      (Grammar.IsMacroName name.toList →
        Tree.deepParenthesis? ctx.options.maxParseDepth {} 0 (Tree.macroText name).toList = none →
        Interchangeable NotOne (compile ctx (Tree.callText "macro" name))
          (compile ctx (Tree.macroText name))) := by
  have hagree : ∀ {source other t u}, Tree.parse ctx.options.maxParseDepth source = .ok t →
      Tree.parse ctx.options.maxParseDepth other = .ok u → t.withoutSpans.height = 2 →
      u.withoutSpans.height = 1 →
      Term.Paired (Term.ofTree (nestedKind ctx.levels ctx) ctx "" t.withoutSpans)
        (Term.ofTree (nestedKind ctx.levels ctx) ctx "" u.withoutSpans) →
      Interchangeable NotOne (compile ctx source) (compile ctx other) := by
    intro source other t u ht hu htheight huheight hpaired
    rw [Tree.height_withoutSpans] at htheight huheight
    exact (interchangeable_of_paired ht hu hpaired).notOne ht hu (by omega) (by omega)
  constructor
  · have hfunction : Grammar.IsName "attribute".toList :=
      .cons (by decide) (Grammar.forall_mem_of_all (by decide))
    obtain ⟨t, ht, htree⟩ := @Tree.parse_callText _ name _ hfunction hparse
    obtain ⟨u, hu, hutree⟩ := @Tree.parse_attributeText ctx.options.maxParseDepth name hname
    refine hagree ht hu (by rw [htree]; rfl) (by rw [hutree]; rfl) ?_
    rw [htree, hutree]
    exact Term.paired_attribute hattribute
  · intro hmacroName hscan
    have hfunction : Grammar.IsName "macro".toList :=
      .cons (by decide) (Grammar.forall_mem_of_all (by decide))
    obtain ⟨t, ht, htree⟩ := @Tree.parse_callText _ name _ hfunction hparse
    obtain ⟨u, hu, hutree⟩ := Tree.parse_macroText hmacroName hscan
    refine hagree ht hu (by rw [htree]; rfl) (by rw [hutree]; rfl) ?_
    rw [htree, hutree]
    exact Term.paired_macro hmacros

/-- A name with a bracket, of an attribute and of a macro. -/
theorem references_agree_of_bracket :
    let ctx := ({} : Engine).context ⟨0, 0⟩ (Row.ofList [("a]", .integer 2)])
    Interchangeable NotOne (compile ctx "attribute(\"a]\")") (compile ctx "[a\\]]") ∧
      Interchangeable NotOne (compile ctx "macro(\"a]\")") (compile ctx "%\x7ba]\x7d") := by
  intro ctx
  have hattribute : ctx.functions.Has Catalog.attributeByName :=
    Catalog.registry_has _ (List.mem_append_right _ (.tail _ (.head _)))
  have hmacros : ctx.functions.Has Catalog.macroByName :=
    Catalog.registry_has _ (List.mem_append_left _ (List.mem_append_right _
      (.tail _ (.tail _ (.head _)))))
  obtain ⟨hagree, hagree'⟩ := @references_agree ctx "a]" hattribute hmacros (by decide) (by decide)
  have hscan : Tree.deepParenthesis? ctx.options.maxParseDepth {} 0 (Tree.macroText "a]").toList =
      none := by
    decide +kernel
  rw [show Tree.callText "attribute" "a]" = "attribute(\"a]\")" by decide +kernel,
    show Tree.attributeText "a]" = "[a\\]]" by decide +kernel] at hagree
  rw [show Tree.callText "macro" "a]" = "macro(\"a]\")" by decide +kernel,
    show Tree.macroText "a]" = "%\x7ba]\x7d" by decide +kernel] at hagree'
  exact ⟨hagree, hagree' ⟨by decide, by decide⟩ hscan⟩

/-- With one as the limit on the depth a reference has its value and the call fails, and with one as
the limit on the height of trees only the reference is read. -/
theorem references_differ :
    let ctx := ({} : Engine).context ⟨0, 0⟩ (Row.ofList [("x", .integer 2)])
    let shallow : Context := { ctx with options := { maxParseDepth := 1 } }
    ¬ Interchangeable (fun _ _ _ => True) (compile ctx "attribute(\"x\")") (compile ctx "[x]") ∧
      ¬ Interchangeable NotOne (compile shallow "attribute(\"x\")") (compile shallow "[x]") := by
  intro ctx shallow
  have hcall : ((compile ctx "attribute(\"x\")").toOption.any fun f =>
      (((f.runWithin 1 ctx).mapError EvaluationError.fault).failure? default).isSome) = true := by
    decide +kernel
  have href : ((compile ctx "[x]").toOption.any fun g =>
      (((g.runWithin 1 ctx).mapError EvaluationError.fault).failure? default).isNone) = true := by
    decide +kernel
  have hrefused : ((compile shallow "attribute(\"x\")").toOption.isNone) = true := by
    decide +kernel
  have hread : ((compile shallow "[x]").toOption.isSome) = true := by
    decide +kernel
  constructor
  · intro h
    obtain ⟨f, hf, hfails⟩ := (Option.any_eq_true _ _).1 hcall
    obtain ⟨g, hg, hreturns⟩ := (Option.any_eq_true _ _).1 href
    rw [toOption_eq_some_iff.1 hf, toOption_eq_some_iff.1 hg] at h
    cases h with
    | compiled _ hruns =>
        rw [hruns ctx 1 trivial, Option.isNone_iff_eq_none.1 hreturns] at hfails
        cases hfails
  · intro h
    cases hf : compile shallow "attribute(\"x\")" with
    | ok f =>
        rw [hf] at hrefused
        cases hrefused
    | error e =>
        cases hg : compile shallow "[x]" with
        | error e =>
            rw [hg] at hread
            cases hread
        | ok g =>
            rw [hf, hg] at h
            cases h

end Formula

end RowFormula
