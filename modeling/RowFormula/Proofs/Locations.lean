/-
# Where errors point

Every error is about a formula whose text it carries, and it points into this text, whichever
stage it comes from.  An error that `eval` reports wraps that of the formula inside, which
carries the text of that formula and points into it in turn.

Which functions an engine has makes no difference, except that a function other than `eval`
could claim that a formula inside failed although none did; such an error is not followed
inwards.  With the functions of the catalog there is none, as `evalReports_of_evaluate` says.
-/

import RowFormula.Engine
import RowFormula.Proofs.Catalog
import RowFormula.Proofs.Levels
import RowFormula.Proofs.Spans
import RowFormula.Report

namespace RowFormula

namespace Error

/-- The place of an error, where it is known. -/
def span? : Error → Option Span
  | unreadable e => some e.span
  | illTyped e => some e.span
  | failed e => e.span

theorem span_diagnosis {error : Error} {span : Span} (h : error.span? = some span) :
    error.diagnosis.span = span := by
  cases error with
  | unreadable | illTyped => exact Option.some.inj h
  | failed e =>
      have hspan : e.span = some span := h
      rw [diagnosis, EvaluationError.diagnosis, hspan, Option.getD_some]

/-- The formula inside that an error is about, with the error of that formula. -/
def inside? : Error → Option (String × Error)
  | failed (.mk (.nested formula inner) _ _) => some (formula, inner)
  | illTyped (.mk (.undetermined _ (.invalidFormula formula inner)) _ _) => some (formula, inner)
  | _ => none

theorem inside?_eq_some {error inner : Error} {formula : String}
    (h : error.inside? = some (formula, inner)) :
    (∃ span source, error = .failed (.mk (.nested formula inner) span source)) ∨
      ∃ function source span,
        error = .illTyped (.mk (.undetermined function (.invalidFormula formula inner))
          source span) := by
  unfold inside? at h
  split at h
  · cases h
    exact .inl ⟨_, _, rfl⟩
  · cases h
    exact .inr ⟨_, _, _, rfl⟩
  · cases h

/-- The error carries the text and has a place in it. -/
def LiesIn (error : Error) (source : String) : Prop :=
  error.source? = some source ∧ ∃ span, error.span? = some span ∧ span.Fits source

end Error

/-- A call of `eval` in the context can report about a formula inside: its body fails with the
error of the formula, or the rule for its kind does. -/
inductive Context.EvalReports (ctx : Context) : Error → (formula : String) → Error → Prop
  | nested {serial : Nat} {k : Kind} {values : List Value} {formula : String} {inner : Error}
      {span : Option Span} {source : Option String} :
      (Catalog.nestedFormula.body (ctx.call (Formula.nestedValue ctx.levels ctx)
        { Catalog.nestedFormula with serial := serial } k) values).Fails (.nested formula inner) →
      ctx.EvalReports (.failed (.mk (.nested formula inner) span source)) formula inner
  | invalidFormula {args : List ArgInfo} {formula : String} {inner : Error} {function : String}
      {span : Span} {source : String} :
      Catalog.nestedFormula.result.resolve
        (ctx.kindRequest (Formula.nestedKind ctx.levels ctx) args) =
          .error (.invalidFormula formula inner) →
      ctx.EvalReports (.illTyped (.mk (.undetermined function (.invalidFormula formula inner))
        source span)) formula inner

/-- The error carries the text and has a place in it, and so it is, with the text of the formula
inside, for what `eval` reports in the context. -/
inductive Error.PointsInto : Context → String → Error → Prop
  | intro {ctx : Context} {source : String} {error : Error} :
      error.LiesIn source →
      (∀ formula inner, ctx.EvalReports error formula inner →
        PointsInto ctx.nested formula inner) →
      PointsInto ctx source error

theorem Error.PointsInto.inside {ctx : Context} {source formula : String} {error inner : Error}
    (h : error.PointsInto ctx source) (hreports : ctx.EvalReports error formula inner) :
    inner.PointsInto ctx.nested formula := by
  cases h with
  | intro _ hinside => exact hinside formula inner hreports

/-- A label for a place in the text need not be moved. -/
theorem Report.Label.ofSpan_of_fits {span : Span} {source : String} (h : span.Fits source) :
    ofSpan source.utf8ByteSize span = ⟨span.start, span.stop⟩ := by
  have hstart := h.start_le_stop
  have hstop := h.stop_le_size
  rw [ofSpan, Nat.min_eq_left hstop, Nat.min_eq_left (Nat.le_trans hstart hstop),
    Nat.max_eq_right hstart]

namespace Catalog

section Rules

variable {ctx : Context} {formulaKind : String → Except KindFault Kind} {args : List ArgInfo}
variable {formula : String} {inner : Error}

theorem kindArgument_ne_invalidFormula {position : Nat} :
    kindArgument (ctx.kindRequest formulaKind args) position ≠
      .error (.invalidFormula formula inner) := by
  intro h
  unfold kindArgument at h
  obtain h | ⟨arg, -, h⟩ := bind_eq_error_iff.1 h
  · unfold KindRequest.argument at h
    split at h <;> cases h
  · split at h
    · cases h
    · split at h
      · cases h
      · split at h <;> cases h

/-- The rule for the kind of `eval` blames a formula only if that has no kind. -/
theorem exists_of_formulaResult
    (h : formulaResult (ctx.kindRequest formulaKind args) =
      .error (.invalidFormula formula inner)) :
    ∃ text, formulaKind text = .error (.invalidFormula formula inner) := by
  unfold formulaResult at h
  split at h
  · exact absurd h kindArgument_ne_invalidFormula
  · split at h
    · cases h
    · exact ⟨_, h⟩

theorem attributeResult_ne_invalidFormula :
    attributeResult (ctx.kindRequest formulaKind args) ≠
      .error (.invalidFormula formula inner) := by
  intro h
  unfold attributeResult at h
  split at h
  · exact absurd h kindArgument_ne_invalidFormula
  · split at h
    · cases h
    · split at h <;> cases h

/-- No other rule of the catalog than that of `eval` blames a formula. -/
theorem resolve_nestedFormula_of_get? {name : String} {f : Function}
    (hf : registry.get? name = some f)
    (h : f.result.resolve (ctx.kindRequest formulaKind args) =
      .error (.invalidFormula formula inner)) :
    nestedFormula.result.resolve (ctx.kindRequest formulaKind args) =
      .error (.invalidFormula formula inner) := by
  obtain ⟨g, hg, serial, -, rfl⟩ := Registry.exists_mem_of_get?_ofList hf
  replace h : g.result.resolve (ctx.kindRequest formulaKind args) =
    .error (.invalidFormula formula inner) := h
  cases hrule : g.result with
  | custom rule =>
      obtain rfl | rfl := eq_of_isCustom hg (by rw [hrule]; rfl)
      · exact h
      · exact absurd h attributeResult_ne_invalidFormula
  | _ =>
      rw [hrule] at h
      cases h

end Rules

end Catalog

namespace Formula

variable {ctx : Context} {source formula : String} {error inner : Error}

/-- A formula inside is blamed for having no kind if it does not compile one level deeper. -/
theorem compile_of_nestedKind {text : String}
    (h : nestedKind ctx.levels ctx text = .error (.invalidFormula formula inner)) :
    ctx.nesting < ctx.options.maxNesting ∧ compile ctx.nested formula = .error inner := by
  rw [nestedKind_levels] at h
  split at h
  · cases h
  · rename_i hopen
    split at h
    · cases h
    · rename_i hcompile
      cases h
      exact ⟨Nat.lt_of_not_le hopen, hcompile⟩

/-- What does not compile cannot be evaluated either. -/
theorem fails_of_compile (h : compile ctx source = .error error) :
    (evaluate ctx source).Fails error := by
  rw [evaluate, h]
  exact Evaluation.fails_throw.2 rfl

/-- What `eval` reports is that the formula inside fails one level deeper. -/
theorem fails_of_evalReports (h : ctx.EvalReports error formula inner) :
    ctx.nesting < ctx.options.maxNesting ∧ (evaluate ctx.nested formula).Fails inner := by
  cases h with
  | nested hbody =>
      obtain ⟨text, -, hformula | ⟨v, -, -, hfault⟩⟩ := Catalog.nestedFormula_ensures.2 _ hbody
      · obtain ⟨-, hlimit⟩ | ⟨hopen, error, herror, hwrapped⟩ := fails_nestedValue hformula
        · cases hlimit
        · cases hwrapped
          exact ⟨hopen, herror⟩
      · cases hfault
  | invalidFormula hrule =>
      obtain ⟨text, htext⟩ := Catalog.exists_of_formulaResult hrule
      obtain ⟨hopen, hcompile⟩ := compile_of_nestedKind htext
      exact ⟨hopen, fails_of_compile hcompile⟩

/-! ### The stages -/

/-- A text that does not compile is unreadable at a place in it or has a node that is at
fault. -/
theorem liesIn_of_compile {formulaKind : String → Except KindFault Kind}
    (h : compileWith formulaKind ctx source = .error error) : error.LiesIn source := by
  unfold compileWith at h
  split at h
  · rename_i e he
    cases h
    obtain ⟨hsource, hspan⟩ := Tree.fits_of_parse_eq_error he
    exact ⟨congrArg some hsource, e.span, rfl, hspan⟩
  · rename_i tree htree
    split at h
    · rename_i e he
      cases h
      obtain ⟨node, fault, hnode, -, rfl⟩ := Term.isFoundIn_of_ofTree he
      exact ⟨rfl, node.span, rfl, Tree.fits_of_parse htree hnode⟩
    · cases h

/-- A run blames a node of the formula, which stands for a node of the text. -/
theorem liesIn_of_run {declared : Context} {f : Formula} (hf : compile declared source = .ok f)
    {maxDepth : Nat} {e : EvaluationError} (h : (f.runWithin maxDepth ctx).Fails e) :
    (Error.failed e).LiesIn source := by
  obtain ⟨tree, htree, hterm, rfl⟩ := compileWith_eq_ok hf
  obtain ⟨node, depth, fault, hnode, -, rfl⟩ := fails_runWithin h
  obtain ⟨origin, horigin, hspan⟩ := Term.exists_origin_of_hasNode hterm hnode
  exact ⟨rfl, node.span, rfl, hspan ▸ Tree.fits_of_parse htree horigin⟩

theorem liesIn_of_evaluate (h : (evaluate ctx source).Fails error) : error.LiesIn source := by
  obtain hcompile | ⟨f, e, hf, hrun, rfl⟩ := fails_evaluate h
  · exact liesIn_of_compile hcompile
  · exact liesIn_of_run hf hrun

/-- An error with a place in its text points into it at all levels: what `eval` reports are
errors with a place in their texts.  The induction is on the levels of formulas that are left. -/
theorem pointsInto_of_liesIn (h : error.LiesIn source) : error.PointsInto ctx source := by
  generalize hlevels : ctx.levels = levels
  induction levels using Nat.strongRecOn generalizing ctx source error with
  | _ levels ih =>
      refine .intro h fun formula inner hreports => ?_
      obtain ⟨hopen, hfails⟩ := fails_of_evalReports hreports
      have hdeeper : ctx.nested.levels < levels := by
        rw [← hlevels]
        show ctx.options.maxNesting - (ctx.nesting + 1) < ctx.options.maxNesting - ctx.nesting
        omega
      exact ih _ hdeeper (liesIn_of_evaluate hfails) rfl

/-! ### What `eval` reports -/

/-- A run that fails because of a formula inside fails with what `eval` reports, if the formula
was compiled with the functions of the catalog. -/
theorem evalReports_of_run {declared : Context} {f : Formula}
    (hfunctions : declared.functions = Catalog.registry)
    (hf : compile declared source = .ok f) {maxDepth : Nat} {e : EvaluationError}
    (h : (f.runWithin maxDepth ctx).Fails e) (hfault : e.fault = .nested formula inner) :
    ctx.EvalReports (.failed e) formula inner := by
  obtain ⟨tree, -, hterm, -⟩ := compileWith_eq_ok hf
  obtain ⟨node, depth, fault, hnode, hfaults, rfl⟩ := fails_runWithin h
  obtain rfl : fault = .nested formula inner := hfault
  cases hfaults with
  | @body k span g args values _ _ hbody =>
      obtain ⟨⟨name, hname⟩, -⟩ := Term.resolvedIn_ofTree hterm _ hnode
      rw [hfunctions] at hname
      obtain hregular | ⟨serial, rfl | rfl⟩ := Catalog.of_get?_registry hname
      · -- A regular function has faults of its own only.
        cases (hregular.outcome ctx _ k values).2 _ hbody
      · exact .nested hbody
      · obtain ⟨_, -, ⟨-, hfault⟩ | ⟨_, -, -, hfault⟩⟩ :=
          Catalog.attributeByName_ensures.2 _ hbody <;> cases hfault

/-- A text that does not compile because of a formula inside fails with what `eval` reports. -/
theorem evalReports_of_compile (hfunctions : ctx.functions = Catalog.registry) {e : TypeError}
    {function : String} (h : compile ctx source = .error (.illTyped e))
    (hfault : e.fault = .undetermined function (.invalidFormula formula inner)) :
    ctx.EvalReports (.illTyped e) formula inner := by
  unfold compile compileWith at h
  split at h
  · cases h
  · split at h
    · rename_i he
      cases h
      obtain ⟨node, fault, -, hexplained, rfl⟩ := Term.isFoundIn_of_ofTree he
      obtain rfl : fault = .undetermined function (.invalidFormula formula inner) := hfault
      obtain ⟨f, args, hf, hrule⟩ := hexplained _ _ rfl
      rw [hfunctions] at hf
      exact .invalidFormula (Catalog.resolve_nestedFormula_of_get? hf hrule)
    · cases h

/-- With the functions of the catalog, every error about a formula inside is one that `eval`
reports. -/
theorem evalReports_of_evaluate (hfunctions : ctx.functions = Catalog.registry)
    (h : (evaluate ctx source).Fails error) (hinside : error.inside? = some (formula, inner)) :
    ctx.EvalReports error formula inner := by
  obtain ⟨_, _, rfl⟩ | ⟨_, _, _, rfl⟩ := Error.inside?_eq_some hinside
  · obtain hcompile | ⟨f, e, hf, hrun, heq⟩ := fails_evaluate h
    · obtain ⟨_, heq⟩ | ⟨_, heq⟩ := compileWith_eq_error hcompile <;> cases heq
    · cases heq
      exact evalReports_of_run hfunctions hf hrun rfl
  · obtain hcompile | ⟨_, _, _, _, heq⟩ := fails_evaluate h
    · exact evalReports_of_compile hfunctions hcompile rfl
    · cases heq

/-- Errors point into their own formulas.  Whatever is compiled, evaluated, or compiled with one
context and run with another carries its text and fails at a place in it, and the same holds one
level deeper for the formulas inside, as far as `eval` reports them.  A report never has to move
such a place. -/
theorem errors_point_into_source (ctx : Context) (source : String) :
    (∀ error, compile ctx source = .error error → error.PointsInto ctx source) ∧
    (∀ error, (evaluate ctx source).Fails error → error.PointsInto ctx source) ∧
    (∀ declared f, compile declared source = .ok f → ∀ maxDepth e,
      (f.runWithin maxDepth ctx).Fails e → (Error.failed e).PointsInto ctx source) ∧
    ∀ error : Error, error.PointsInto ctx source →
      Report.Label.ofSpan source.utf8ByteSize error.diagnosis.span =
        ⟨error.diagnosis.span.start, error.diagnosis.span.stop⟩ := by
  refine ⟨?compiled, ?evaluated, ?run, ?shown⟩
  case compiled => exact fun _ h => pointsInto_of_liesIn (liesIn_of_compile h)
  case evaluated => exact fun _ h => pointsInto_of_liesIn (liesIn_of_evaluate h)
  case run => exact fun _ _ hf _ _ h => pointsInto_of_liesIn (liesIn_of_run hf h)
  case shown =>
    rintro error ⟨⟨-, span, hspan, hfits⟩, -⟩
    rw [Error.span_diagnosis hspan]
    exact Report.Label.ofSpan_of_fits hfits

/-- A formula from the row that evaluates an unknown name, in texts with characters of two
bytes. -/
theorem errors_point_into_source_of_nested :
    let formula := "\"ü\" + eval(\"nope\")"
    let source := "\"é\" + eval([f], REAL)"
    let ctx := ({} : Engine).context ⟨0, 0⟩ (Row.ofList [("f", .ofString formula)])
    ∃ error inner innermost, (evaluate ctx source).Fails error ∧
      ctx.EvalReports error formula inner ∧ ctx.nested.EvalReports inner "nope" innermost ∧
      error.PointsInto ctx source ∧ inner.PointsInto ctx.nested formula ∧
      innermost.PointsInto ctx.nested.nested "nope" ∧
      [error, inner, innermost].map (·.diagnosis.span) = [⟨7, 22⟩, ⟨7, 19⟩, ⟨0, 4⟩] := by
  intro formula source ctx
  have hcheck : (match ((evaluate ctx source).outcome default).1 with
      | .ok _ => false
      | .error error => error.inside?.any fun (text, inner) =>
        text == formula && inner.inside?.any fun (text, innermost) =>
          text == "nope" && [error, inner, innermost].map (·.diagnosis.span) ==
            [⟨7, 22⟩, ⟨7, 19⟩, ⟨0, 4⟩]) = true := by
    decide +kernel
  split at hcheck
  · cases hcheck
  · rename_i error herror
    obtain ⟨⟨text, inner⟩, hinner, hcheck⟩ := (Option.any_eq_true _ _).1 hcheck
    obtain ⟨htext, hcheck⟩ := (Bool.and_eq_true _ _).mp hcheck
    obtain ⟨⟨text', innermost⟩, hinnermost, hcheck⟩ := (Option.any_eq_true _ _).1 hcheck
    simp only [Bool.and_eq_true, beq_iff_eq] at htext hcheck
    obtain ⟨rfl, hspans⟩ := hcheck
    subst htext
    have hfails : (evaluate ctx source).Fails error := ⟨default, herror⟩
    have hreports := evalReports_of_evaluate rfl hfails hinner
    have hreports' := @evalReports_of_evaluate ctx.nested _ _ _ _ rfl
      (fails_of_evalReports hreports).2 hinnermost
    have hpoints := (errors_point_into_source ctx source).2.1 error hfails
    exact ⟨error, inner, innermost, hfails, hreports, hreports', hpoints,
      hpoints.inside hreports, (hpoints.inside hreports).inside hreports', hspans⟩

end Formula

end RowFormula
