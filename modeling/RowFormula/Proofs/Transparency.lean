/-
# Constant formulas inside of formulas

A call of the function `eval` on a text that is written out is as good as the formula of that
text.  The text is compiled twice, by the rule for the kind of the call and again by the body
of the function; both times it is compiled one level deeper, so that the kinds agree and
neither the body nor the node of the call has anything left to convert.
-/

import RowFormula.Engine
import RowFormula.Proofs.Folding
import RowFormula.Proofs.Levels
import RowFormula.Proofs.RoundTrip

namespace RowFormula

/-! ### Texts in calls -/

/-- What stands between quotes is read as the text. -/
structure Quotes (content : List Char) (text : String) : Prop where
  /-- The characters are plain or belong to an escape. -/
  parts : ∃ parts : List (List Char),
    content = parts.flatten ∧ ∀ part ∈ parts, Grammar.TextPart part
  unescape : Grammar.unescape (String.ofList content) = .ok text

/-- The characters of a call with one quoted argument. -/
def quotedCall (name content : List Char) : List Char :=
  name ++ '(' :: ('"' :: content ++ ['"'] ++ [')'])

section Quoted

open Grammar Grammar.Recognize

variable {name content : List Char} {text : String}

/-- Every text can be quoted, with a backslash in front of quotes and backslashes. -/
theorem quotes_escaped (text : String) : Quotes (escaped '"' text.toList) text where
  parts := ⟨_, rfl, fun _ => textPart_of_escaped⟩
  unescape := by
    rw [unescape_eq, String.toList_ofList, unescapeFrom_escaped, Except.map,
      String.ofList_toList]

theorem Quotes.spellsLeaf (h : Quotes content text) :
    SpellsLeaf ('"' :: content ++ ['"']) (.string content) := by
  obtain ⟨parts, rfl, hparts⟩ := h.parts
  exact .string hparts

/-- A call with a quoted argument goes one parenthesis deep, whatever is quoted. -/
theorem Quotes.raises (hname : IsName name) (h : Quotes content text) :
    Tree.Raises (quotedCall name content) 1 :=
  (Tree.raises_of_spellsLeaf (.ident hname) nofun).append
    (Tree.raises_of_spellsLeaf h.spellsLeaf nofun).parenthesized

theorem Quotes.accepts {levels : Nat} (hname : IsName name) (h : Quotes content text) :
    Accepts (primary (expression (levels + 1)))
      (fun p => ∃ span span',
        p = .call name [.single (.mk [] (.leaf (.string content) span'))] span)
      (quotedCall name content) [] := by
  have hclose : Closes [')'] := ⟨[], [')'], rfl, List.forall_mem_nil _, forall_mem_head (.inl rfl)⟩
  have hargument := @accepts_bare _ levels _ _ h.spellsLeaf.begins
    (accepts_leaf h.spellsLeaf hclose.ends hclose.noCall) hclose
  have hmore : Rejects (do blanks; char ','; blanks; expression (levels + 1)) [')'] :=
    (accepts_no_blanks (forall_mem_head (by decide))).rejects_bind fun _ _ =>
      Rejects.bind (rejects_char (forall_mem_head (by decide)))
  have harguments : Accepts (arguments (expression (levels + 1)) <|> pure [])
      (fun cs => ∃ span', cs = [.single (.mk [] (.leaf (.string content) span'))])
      ('"' :: content ++ ['"'] ++ [')']) [')'] := by
    refine Accepts.orElse (hargument.bind fun c hc => hmore.many.bind fun cs hcs => ?_)
    obtain ⟨_, rfl, span', rfl⟩ := hc
    exact Accepts.pure ⟨span', by rw [hcs]⟩
  have hcall := @accepts_call _ [] [] _ [] name _ hname (List.forall_mem_nil _)
    (List.forall_mem_nil _) (forall_mem_head (by decide)) [] harguments (List.forall_mem_nil _)
  refine hcall.mono ?_
  rintro _ ⟨_, span, rfl, span', rfl⟩
  exact ⟨span, span', rfl⟩

/-- A call with a quoted argument is read as a call with a text. -/
theorem Quotes.parse {maxDepth : Nat} (hname : IsName name) (h : Quotes content text)
    (hdepth : 2 ≤ maxDepth) :
    ∃ span span', Tree.parse maxDepth (String.ofList (quotedCall name content)) =
      .ok (.call (String.ofList name) span [.text text span']) := by
  have hbegins : Begins (quotedCall name content) := hname.begins
  obtain ⟨levels, hlevels⟩ : ∃ levels, (quotedCall name content).length = levels + 1 := by
    refine Nat.exists_eq_add_one_of_ne_zero ?_
    rw [quotedCall, List.length_append, List.length_cons]
    omega
  obtain ⟨_, hrecognize, span, span', rfl⟩ := recognize_bare hbegins
    (hlevels ▸ @Quotes.accepts _ _ _ levels hname h)
  have hscan : Tree.deepParenthesis? maxDepth {} 0 (quotedCall name content) = none := by
    refine (Tree.deepParenthesis?_eq_none_iff (Nat.zero_le _)).2 ?_
    have hpeak := (h.raises hname 0).2
    rw [show ({} : Tree.ScanState) = Tree.ScanState.outside 0 from rfl, hpeak]
    omega
  have hleaf : Tree.ofLeaf (String.ofList (quotedCall name content)) span' (.string content) =
      .ok (.text text span') := by
    rw [Tree.ofLeaf, h.unescape]
    rfl
  have hcall : Tree.ReadsPrimary (String.ofList (quotedCall name content))
      (.call name [.single (.mk [] (.leaf (.string content) span'))] span)
      (.call (String.ofList name) span [.text text span']) :=
    .call (.cons (Tree.readsChain_bare (.leaf hleaf)) .nil)
  have hchars : (String.ofList (quotedCall name content)).toList = quotedCall name content :=
    String.toList_ofList
  rw [← hchars] at hscan hrecognize
  exact ⟨span, span',
    Tree.parse_of_reads hrecognize (Tree.readsChain_bare hcall) hscan hdepth⟩

end Quoted

/-! ### Transparency -/

/-- Formulas find under the name `eval` the function that evaluates texts. -/
def Registry.HasEval (r : Registry) : Prop :=
  ∃ serial, r.get? "eval" = some { Catalog.nestedFormula with serial := serial }

theorem Catalog.registry_hasEval : registry.HasEval := ⟨_, rfl⟩

namespace Formula

/-- The text of a formula that evaluates a quoted formula. -/
def quotedEval (content : List Char) : String :=
  String.ofList (quotedCall "eval".toList content)

/-- The node of a formula that evaluates a quoted formula. -/
def evalNode (k : Kind) (serial : Nat) (text : String) (span span' : Span) : Term :=
  .call k span { Catalog.nestedFormula with serial := serial }
    [.constant .string span' (.ofString text)]

variable {ctx : Context} {content : List Char} {text : String}

/-- A call of `eval` with a text has the kind of the text as a formula. -/
theorem ofTree_eval {formulaKind : String → Except KindFault Kind} {serial : Nat}
    {source : String} {span span' : Span}
    (heval : ctx.functions.get? "eval" = some { Catalog.nestedFormula with serial := serial }) :
    Term.ofTree formulaKind ctx source (.call "eval" span [.text text span']) =
      match formulaKind text with
      | .ok k => .ok (evalNode k serial text span span')
      | .error fault => .error (.mk (.undetermined "eval" fault) source span) := by
  have hfunction : Term.functionFor ctx source "eval" 1 span =
      .ok { Catalog.nestedFormula with serial := serial } := by
    rw [Term.functionFor, heval]
    rfl
  have hkind : Term.callKind formulaKind ctx source "eval" span
      { Catalog.nestedFormula with serial := serial } [.constant .string span' (.ofString text)] =
      match formulaKind text with
      | .ok k => .ok k
      | .error fault => .error (.mk (.undetermined "eval" fault) source span) := rfl
  rw [Term.ofTree, if_neg (by decide), List.length_singleton, hfunction]
  · change Term.ofCall formulaKind ctx source "eval" span _
      [.constant .string span' (.ofString text)] = _
    rw [Term.ofCall, hkind]
    cases formulaKind text <;> rfl
  · intro _ _ _ h
    cases h

/-- Whether a quoted formula compiles, and with which kind, is up to the rule for the kinds of
nested formulas. -/
theorem compile_quotedEval (heval : ctx.functions.HasEval) (hparse : 2 ≤ ctx.options.maxParseDepth)
    (h : Quotes content text) :
    ∃ serial span span', compile ctx (quotedEval content) =
      match nestedKind ctx.levels ctx text with
      | .ok k => .ok ⟨quotedEval content, evalNode k serial text span span'⟩
      | .error fault =>
        .error (.illTyped (.mk (.undetermined "eval" fault) (quotedEval content) span)) := by
  obtain ⟨serial, heval⟩ := heval
  have hname : Grammar.IsName "eval".toList :=
    .cons (by decide) (Grammar.forall_mem_of_all (by decide))
  obtain ⟨span, span', htree⟩ := h.parse hname hparse
  rw [String.ofList_toList] at htree
  refine ⟨serial, span, span', ?_⟩
  rw [compile, compileWith, quotedEval, htree]
  simp only
  rw [ofTree_eval heval]
  cases nestedKind ctx.levels ctx text <;> rfl

/-- A quoted formula runs as the formula does one level deeper. -/
theorem run_evalNode {g : Formula} {serial : Nat} {span span' : Span} {source : String}
    (hnesting : ctx.nesting < ctx.options.maxNesting) (hdepth : 2 ≤ ctx.options.maxDepth)
    (hg : compile ctx.nested text = .ok g) :
    run ctx ⟨source, evalNode g.kind serial text span span'⟩ =
      (g.run ctx.nested).mapError fun e =>
        .mk (.nested text (.failed e)) (some span) (some source) := by
  have hvalue : nestedValue ctx.levels ctx text =
      (g.run ctx.nested).mapError fun e => .nested text (.failed e) := by
    rw [nestedValue_levels, if_neg (Nat.not_le.2 hnesting), evaluate, hg]
    exact Evaluation.mapError_mapError _ _ _
  have hreturns : ∀ v, (nestedValue ctx.levels ctx text).Returns v → v.kind = g.kind := by
    intro v hv
    rw [hvalue, Evaluation.returns_mapError, run, runWithin] at hv
    exact (wellKinded_of_compile hg).kind_of_returns (Evaluation.returns_mapError.1 hv)
  -- Neither the body nor the node converts anything, as the values have the kind already.
  have hbody : ∀ (call : Call), call.resultKind = g.kind →
      nestedValue ctx.levels ctx text >>= call.coerce = nestedValue ctx.levels ctx text := by
    intro call hcall
    refine (Evaluation.bind_congr_of_returns fun v hv => ?_).trans (bind_pure _)
    rw [Call.coerce, hcall, ← hreturns v hv, Value.coerce?_self]
    rfl
  have hnode : Term.apply (nestedValue ctx.levels ctx) ctx g.kind span
      { Catalog.nestedFormula with serial := serial } [.ofString text] =
      (nestedValue ctx.levels ctx text).mapError (.located · span) := by
    change (nestedValue ctx.levels ctx text >>= Call.coerce _).mapError _ >>= _ = _
    rw [hbody _ rfl]
    refine (Evaluation.bind_congr_of_returns fun v hv => ?_).trans (bind_pure _)
    rw [Term.conform, ← hreturns v (Evaluation.returns_mapError.1 hv), Value.coerce?_self]
    rfl
  rw [run, runWithin, runWith, evalNode, Term.evaluate, Term.guardDepth_of_lt (by omega),
    pure_bind, Term.evaluateAll, Term.evaluate_constant (by omega), Term.evaluateAll,
    pure_bind, pure_bind, pure_bind, hnode, hvalue, Evaluation.mapError_mapError,
    Evaluation.mapError_mapError]
  rfl

/-- A formula that evaluates a quoted formula compiles whenever the quoted formula does one
level deeper.  It has the same kind and the same values from the same random numbers, and an
error of the quoted formula is wrapped together with its text. -/
theorem quotedEval_transparent (heval : ctx.functions.HasEval)
    (hnesting : ctx.nesting < ctx.options.maxNesting) (hparse : 2 ≤ ctx.options.maxParseDepth)
    (hdepth : 2 ≤ ctx.options.maxDepth) (h : Quotes content text) :
    ((∃ f, compile ctx (quotedEval content) = .ok f) ↔ ∃ g, compile ctx.nested text = .ok g) ∧
      ∀ f g, compile ctx (quotedEval content) = .ok f → compile ctx.nested text = .ok g →
        f.kind = g.kind ∧
        ∀ draws later,
          (∀ v, (f.run ctx).outcome draws = (.ok v, later) ↔
            (g.run ctx.nested).outcome draws = (.ok v, later)) ∧
          ∀ e, (g.run ctx.nested).outcome draws = (.error e, later) →
            (f.run ctx).outcome draws =
              (.error (.mk (.nested text (.failed e)) (some f.term.span) (some f.source)),
                later) := by
  obtain ⟨serial, span, span', hcompile⟩ := compile_quotedEval heval hparse h
  rw [nestedKind_levels, if_neg (Nat.not_le.2 hnesting)] at hcompile
  cases hg : compile ctx.nested text with
  | error e =>
      rw [hg] at hcompile
      refine ⟨⟨fun ⟨f, hf⟩ => ?_, nofun⟩, nofun⟩
      rw [hcompile] at hf
      cases hf
  | ok g =>
      rw [hg] at hcompile
      refine ⟨⟨fun _ => ⟨g, rfl⟩, fun _ => ⟨_, hcompile⟩⟩, ?_⟩
      intro f g' hf hg'
      obtain rfl := Except.ok.inj hg'
      obtain rfl := Except.ok.inj (hcompile.symm.trans hf)
      refine ⟨rfl, fun draws later => ?_⟩
      rw [run_evalNode hnesting hdepth hg, Evaluation.outcome_mapError]
      rcases (g.run ctx.nested).outcome draws with ⟨e | v, later'⟩
      · refine ⟨fun v => ⟨nofun, nofun⟩, fun e' he => ?_⟩
        cases he
        rfl
      · exact ⟨fun v' => Iff.rfl, nofun⟩

/-- Inside of quotes the quotes of a formula are escaped. -/
theorem quotedEval_transparent_of_concatenation :
    let ctx := ({} : Engine).context ⟨0, 0⟩ (Row.ofList [("b", .ofString "c")])
    ∃ f, compile ctx "eval(\"\\\"a\\\" + [b]\")" = .ok f ∧ f.kind = .string ∧
      (f.run ctx).Returns (.ofString "ac") := by
  intro ctx
  have hcheck : ((compile ctx.nested "\"a\" + [b]").toOption.any fun g => g.kind == .string &&
      ((g.run ctx.nested).outcome default).1.toOption == some (.ofString "ac")) = true := by
    decide +kernel
  obtain ⟨g, hg, hcheck⟩ := (Option.any_eq_true _ _).1 hcheck
  have hg := toOption_eq_some_iff.1 hg
  rw [Bool.and_eq_true, beq_iff_eq, beq_iff_eq, toOption_eq_some_iff] at hcheck
  obtain ⟨hcompiles, hsame⟩ := @quotedEval_transparent ctx _ _ Catalog.registry_hasEval
    (by decide) (by decide) (by decide) (quotes_escaped "\"a\" + [b]")
  obtain ⟨f, hf⟩ := hcompiles.2 ⟨g, hg⟩
  obtain ⟨hkind, hrun⟩ := hsame f g hf hg
  exact ⟨f, hf, hkind.trans hcheck.1,
    default, congrArg Prod.fst (((hrun default _).1 _).2 (Prod.ext hcheck.2 rfl))⟩

end Formula

end RowFormula
