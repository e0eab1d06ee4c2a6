/-
# Conditionals that are settled early

A conditional with a constant condition is settled while it is resolved: the chosen branch takes
its place and keeps its own kind, and the other branch is not even looked at.  With any other
condition it is settled while it is evaluated: both branches are resolved, and the value of the
chosen one is converted to the kind in which the two meet.

Here one conditional is held against the other, for the same branches and the same value as
condition.  Both texts are read and resolved to what `Term.settled` says, apart from spans.  What is
left is to compare a branch that is evaluated by itself with the same branch one level deeper.
-/

import RowFormula.Proofs.Building
import RowFormula.Proofs.Interchange
import RowFormula.Proofs.Progress

namespace RowFormula

/-! ### Reading a conditional -/

namespace Tree

open Grammar
open Recognize (isBlank)

/-- The text of a conditional. -/
def conditionalText (condition whenTrue whenFalse : String) : String :=
  "if(" ++ condition ++ ", " ++ whenTrue ++ ", " ++ whenFalse ++ ")"

/-- The limit on the depth of formulas admits a conditional: no parenthesis of its text is deeper,
and its parts leave room for one more node. -/
structure AdmitsConditional (limit : Nat) (condition whenTrue whenFalse : String) : Prop where
  parentheses :
    deepParenthesis? limit {} 0 (conditionalText condition whenTrue whenFalse).toList = none
  height : ∀ part ∈ [condition, whenTrue, whenFalse], ∀ tree, parse limit part = .ok tree →
    tree.height < limit

section Reading

variable {limit : Nat} {source : String} {t : Tree}

/-- A text that is read is taken as a chain that reads as its tree, apart from blanks around it. -/
theorem exists_taken_of_parse (h : parse limit source = .ok t) :
    ∃ c gap cs gap', (∀ c ∈ gap, isBlank c = true) ∧ (∀ c ∈ gap', isBlank c = true) ∧
      source.toList = gap ++ (cs ++ gap') ∧ ChainTaken c cs ∧ ReadsChain source c t := by
  obtain ⟨c, hc, hreads⟩ := exists_reads_of_parse h
  obtain ⟨gap, cs, gap', hgap, hgap', hsource, htaken⟩ := (spells_of_recognize hc).taken
  exact ⟨c, gap, cs, gap', hgap, hgap', hsource, htaken, hreads⟩

theorem toList_conditionalText (condition whenTrue whenFalse : String) :
    (conditionalText condition whenTrue whenFalse).toList =
      ['i', 'f', '('] ++ condition.toList ++ [',', ' '] ++ whenTrue.toList ++ [',', ' '] ++
        whenFalse.toList ++ [')'] := by
  simp [conditionalText, String.toList_append]

/-- The text of a conditional is recognised as a call of the chains of its three parts, apart from
spans. -/
theorem recognize_conditional {condition whenTrue whenFalse : String} {c x y : Tree}
    (hc : parse limit condition = .ok c) (hx : parse limit whenTrue = .ok x)
    (hy : parse limit whenFalse = .ok y) :
    ∃ chain₁ chain₂ chain₃ span, recognize (conditionalText condition whenTrue whenFalse).toList =
        .ok (.single (.mk [] (.call ['i', 'f'] [chain₁, chain₂, chain₃] span))) ∧
      ∀ source, (∃ c', ReadsChain source chain₁ c' ∧ c'.withoutSpans = c.withoutSpans) ∧
        (∃ x', ReadsChain source chain₂ x' ∧ x'.withoutSpans = x.withoutSpans) ∧
        ∃ y', ReadsChain source chain₃ y' ∧ y'.withoutSpans = y.withoutSpans := by
  obtain ⟨_, gap₁, cs₁, gap₁', hgap₁, hgap₁', hsource₁, htaken₁, hreads₁⟩ :=
    exists_taken_of_parse hc
  obtain ⟨_, gap₂, cs₂, gap₂', hgap₂, hgap₂', hsource₂, htaken₂, hreads₂⟩ :=
    exists_taken_of_parse hx
  obtain ⟨_, gap₃, cs₃, gap₃', hgap₃, hgap₃', hsource₃, htaken₃, hreads₃⟩ :=
    exists_taken_of_parse hy
  have hblank : isBlank ' ' = true := rfl
  have harguments := argumentsTaken_of_more htaken₁
    (moreTaken_cons hgap₁' (List.forall_mem_cons.2 ⟨hblank, hgap₂⟩) htaken₂
      (moreTaken_cons hgap₂' (List.forall_mem_cons.2 ⟨hblank, hgap₃⟩) htaken₃ moreTaken_nil))
  have hname : IsName ['i', 'f'] := .cons rfl (forall_mem_of_all rfl)
  have hcall := @primaryTaken_of_arguments _ _ [] _ _ _ ⟨0, 0⟩ hname (List.forall_mem_nil _) hgap₁
    harguments hgap₃'
  obtain ⟨_, hrecognized, hsame⟩ := hcall.recognize
  cases hsame with
  | call hsame =>
      obtain - | ⟨hsame₁, - | ⟨hsame₂, - | ⟨hsame₃, ⟨⟩⟩⟩⟩ := hsame
      refine ⟨_, _, _, _, Eq.trans (congrArg recognize ?_) hrecognized, fun source =>
        ⟨hreads₁.exists_same hsame₁, hreads₂.exists_same hsame₂, hreads₃.exists_same hsame₃⟩⟩
      rw [toList_conditionalText, hsource₁, hsource₂, hsource₃]
      simp only [List.append_assoc, List.cons_append, List.nil_append, List.append_nil]

/-- The text of a conditional is read as a call of three arguments.  They are the trees as which
the texts are read by themselves, apart from spans. -/
theorem parse_conditional {condition whenTrue whenFalse : String} {c x y : Tree}
    (hc : parse limit condition = .ok c) (hx : parse limit whenTrue = .ok x)
    (hy : parse limit whenFalse = .ok y)
    (hadmits : AdmitsConditional limit condition whenTrue whenFalse) :
    ∃ span c' x' y', parse limit (conditionalText condition whenTrue whenFalse) =
        .ok (.call Term.conditionalName span [c', x', y']) ∧
      c'.withoutSpans = c.withoutSpans ∧ x'.withoutSpans = x.withoutSpans ∧
      y'.withoutSpans = y.withoutSpans := by
  obtain ⟨_, _, _, span, hrecognized, hreads⟩ := recognize_conditional hc hx hy
  obtain ⟨⟨c', hc', hcondition⟩, ⟨x', hx', hwhenTrue⟩, y', hy', hwhenFalse⟩ :=
    hreads (conditionalText condition whenTrue whenFalse)
  refine ⟨span, c', x', y', ?_, hcondition, hwhenTrue, hwhenFalse⟩
  refine parse_of_reads hrecognized
    (readsChain_bare (.call (.cons hc' (.cons hx' (.cons hy' .nil))))) hadmits.parentheses ?_
  have hcheight := hadmits.height _ (by simp) c hc
  have hxheight := hadmits.height _ (by simp) x hx
  have hyheight := hadmits.height _ (by simp) y hy
  rw [height, heights, heights, heights, heights, height_eq_of_withoutSpans_eq hcondition,
    height_eq_of_withoutSpans_eq hwhenTrue, height_eq_of_withoutSpans_eq hwhenFalse]
  omega

end Reading

end Tree

/-- Among the values that can stand as a condition exactly the missing ones are neither true nor
false. -/
theorem Value.truth?_eq_none_iff {v : Value} (h : v.kind.isTruthy = true) :
    v.truth? = none ↔ v.isMissing = true := by
  cases v with
  | integer x | double x =>
      rw [truth?, isMissing]
      split <;> simp_all
  | boolean b => exact Option.isNone_iff_eq_none.symm
  | string | date => cases h

namespace Term

/-! ### Resolving a conditional -/

/-- What a conditional of resolved parts is resolved to. -/
def settled (span : Span) (condition whenTrue whenFalse : Term) : Term :=
  match selected? condition with
  | some true => whenTrue
  | some false => whenFalse
  | none => ofConditional span condition whenTrue whenFalse

theorem settled_of_constant {c : Term} {v : Value} (h : c.constant? = some v) (span : Span)
    (x y : Term) : settled span c x y =
      match v.truth? with
      | some true => x
      | some false => y
      | none => constant (x.kind.unify y.kind) span (Value.missing (x.kind.unify y.kind)) := by
  have hselected : selected? c = v.truth? := by rw [selected?, h]; rfl
  rw [settled, hselected, ofConditional, h]

theorem settled_of_not_constant {c : Term} (h : c.constant? = none) (span : Span) (x y : Term) :
    settled span c x y = conditional (x.kind.unify y.kind) span c x y := by
  have hselected : selected? c = none := by rw [selected?, h]; rfl
  rw [settled, hselected, ofConditional, h]

theorem settled_withoutSpans (span : Span) (c x y : Term) :
    settled ⟨0, 0⟩ c.withoutSpans x.withoutSpans y.withoutSpans =
      (settled span c x y).withoutSpans := by
  rw [settled, settled, selected?, selected?, constant?_withoutSpans]
  split
  · rfl
  · rfl
  · exact ofConditional_withoutSpans c x y

section Resolving

variable {formulaKind : String → Except KindFault Kind} {ctx : Context} {source other : String}

theorem exists_ofTree_of_withoutSpans_eq {t u : Tree} {x : Term}
    (hx : ofTree formulaKind ctx source t = .ok x) (h : u.withoutSpans = t.withoutSpans) :
    ∃ y, ofTree formulaKind ctx other u = .ok y ∧ y.withoutSpans = x.withoutSpans := by
  obtain ⟨x', y, hx', hy, hsame⟩ | ⟨_, _, _, hx', -⟩ :=
    @ofTree_of_withoutSpans_eq formulaKind ctx source other t u h.symm
  · obtain rfl := Except.ok.inj (hx'.symm.trans hx)
    exact ⟨y, hy, hsame.symm⟩
  · cases hx'.symm.trans hx

theorem ofTree_conditional {span : Span} {c x y : Tree} {c' x' y' : Term}
    (hc : ofTree formulaKind ctx source c = .ok c') (htruthy : c'.kind.isTruthy = true)
    (hx : ofTree formulaKind ctx source x = .ok x')
    (hy : ofTree formulaKind ctx source y = .ok y') :
    ofTree formulaKind ctx source (.call conditionalName span [c, x, y]) =
      .ok (settled span c' x' y') := by
  rw [ofTree, if_pos rfl, hc, hx, hy, settled]
  simp only [bind, Except.bind, htruthy, Bool.not_true, Bool.false_eq_true, if_false]
  cases selected? c' with
  | none => rfl
  | some chosen => cases chosen <;> rfl

end Resolving

/-! ### Evaluating a conditional -/

section Evaluating

variable {evaluateFormula : String → Evaluation EvaluationFault Value} {ctx : Context}
variable {maxDepth : Nat}

theorem eq_attributeRef_of_attribute? {t : Term} {name : String} (h : t.attribute? = some name) :
    ∃ span, t = attributeRef t.kind span name := by
  cases t with
  | attributeRef k span _ => exact ⟨span, by rw [Option.some.inj h, kind]⟩
  | _ => cases h

/-- A conditional on an attribute chooses by the value in the row. -/
theorem evaluate_conditional_of_attribute {k : Kind} {span span' : Span} {name : String}
    {c : Value} {x y : Term} (hrow : ctx.row.get? name = some c) (h : 1 < maxDepth) :
    (conditional k span (attributeRef c.kind span' name) x y).evaluate evaluateFormula ctx
        maxDepth 0 =
      match c.truth? with
      | some true => x.evaluate evaluateFormula ctx maxDepth 1 >>= conform k span
      | some false => y.evaluate evaluateFormula ctx maxDepth 1 >>= conform k span
      | none => pure (Value.missing k) := by
  rewrite [evaluate, guardDepth_of_lt (Nat.lt_of_succ_lt h), pure_bind, evaluate,
    guardDepth_of_lt h, pure_bind, attributeValue, hrow, Evaluation.ofOption, pure_bind, conform,
    Value.coerce?_self, Evaluation.ofOption, pure_bind]
  rfl

end Evaluating

end Term

namespace Formula

variable {ctx : Context} {condition whenTrue whenFalse : String} {a b : Formula}

/-- The text of a conditional compiles if its parts do and the condition has a truth. -/
theorem compile_conditional {f : Formula} (hf : compile ctx condition = .ok f)
    (htruthy : f.kind.isTruthy = true) (ha : compile ctx whenTrue = .ok a)
    (hb : compile ctx whenFalse = .ok b)
    (hadmits : Tree.AdmitsConditional ctx.options.maxParseDepth condition whenTrue whenFalse) :
    ∃ s, compile ctx (Tree.conditionalText condition whenTrue whenFalse) = .ok s ∧
      ∀ span, s.term.withoutSpans = (Term.settled span f.term a.term b.term).withoutSpans := by
  obtain ⟨c, hc, hcterm, -⟩ := compileWith_eq_ok hf
  obtain ⟨x, hx, hxterm, -⟩ := compileWith_eq_ok ha
  obtain ⟨y, hy, hyterm, -⟩ := compileWith_eq_ok hb
  obtain ⟨span, c', x', y', hparse, hc', hx', hy'⟩ := Tree.parse_conditional hc hx hy hadmits
  obtain ⟨t, ht, hcondition⟩ := Term.exists_ofTree_of_withoutSpans_eq hcterm hc'
  obtain ⟨u, hu, hwhenTrue⟩ := Term.exists_ofTree_of_withoutSpans_eq hxterm hx'
  obtain ⟨v, hv, hwhenFalse⟩ := Term.exists_ofTree_of_withoutSpans_eq hyterm hy'
  have hkind : t.kind = f.kind := by
    rw [← Term.kind_withoutSpans, hcondition, Term.kind_withoutSpans, Formula.kind]
  refine ⟨⟨Tree.conditionalText condition whenTrue whenFalse, Term.settled span t u v⟩, ?_,
    fun span' => ?_⟩
  · rw [compile_of_parse hparse, resolve, Term.ofTree_conditional ht (hkind ▸ htruthy) hu hv]
  · rw [← Term.settled_withoutSpans, hcondition, hwhenTrue, hwhenFalse,
      Term.settled_withoutSpans]

/-- What becomes of a run if its value is converted to a kind at the end: the converted value or
the same fault, and in any case the same draws. -/
inductive Converted (k : Kind) : Except EvaluationError Value × Random.Draws →
    Except EvaluationError Value × Random.Draws → Prop
  | value {v w : Value} {draws : Random.Draws} (h : v.coerce? k = some w) :
    Converted k (.ok v, draws) (.ok w, draws)
  | failure {e e' : EvaluationError} {draws : Random.Draws} (h : e.fault = e'.fault) :
    Converted k (.error e, draws) (.error e', draws)

theorem converted_of_eq {k : Kind} {x y : Term.Run Value}
    (h : y.mapError EvaluationError.fault = x.mapError EvaluationError.fault >>= fun v =>
      Evaluation.ofOption (.kindMismatch k v.kind) (v.coerce? k))
    (hcoerce : ∀ v, x.Returns v → ∃ w, v.coerce? k = some w) (draws : Random.Draws) :
    Converted k (x.outcome draws) (y.outcome draws) := by
  have houtcome := congrArg (Evaluation.outcome · draws) h
  simp only [Evaluation.outcome_mapError, Evaluation.outcome_bind] at houtcome
  rcases hx : x.outcome draws with ⟨e | v, later⟩
  · rw [hx] at houtcome
    rcases hy : y.outcome draws with ⟨e' | w, later'⟩
    · rw [hy] at houtcome
      obtain ⟨hfault, rfl⟩ := Prod.mk.inj houtcome
      exact .failure (Except.error.inj hfault).symm
    · rw [hy] at houtcome
      cases (Prod.mk.inj houtcome).1
  · obtain ⟨w, hw⟩ := hcoerce v ⟨draws, by rw [hx]⟩
    rw [hx] at houtcome
    change _ = (Evaluation.ofOption _ (v.coerce? k)).outcome later at houtcome
    rw [hw] at houtcome
    rcases hy : y.outcome draws with ⟨e' | w', later'⟩
    · rw [hy] at houtcome
      cases (Prod.mk.inj houtcome).1
    · rw [hy] at houtcome
      obtain ⟨hvalue, rfl⟩ := Prod.mk.inj houtcome
      obtain rfl := Except.ok.inj hvalue
      exact .value hw

/-- A branch by itself and the same branch below a conditional. -/
theorem converted_branch {s d branch : Formula} {k : Kind} {later : Context} {maxDepth : Nat}
    (hs : s.term.WellKinded) (hsame : s.term.withoutSpans = branch.term.withoutSpans)
    (hd : (d.runWithin maxDepth later).mapError EvaluationError.fault =
      (branch.term.evaluate (nestedValue later.levels later) later maxDepth 1 >>=
        Term.conform k ⟨0, 0⟩).mapError EvaluationError.fault)
    (hheight : branch.term.height < maxDepth)
    (hcoerce : ∀ v : Value, v.kind = branch.kind → ∃ w, v.coerce? k = some w)
    (draws : Random.Draws) :
    Converted k ((s.runWithin maxDepth later).outcome draws)
      ((d.runWithin maxDepth later).outcome draws) := by
  refine converted_of_eq ?_ (fun v hv => hcoerce v ?_) draws
  · rw [hd, runs_of_withoutSpans_eq hsame, Evaluation.mapError_bind,
      @Term.evaluate_of_height_le _ later maxDepth maxDepth 1 0 branch.term (by omega) (by omega)]
    exact congrArg _ (funext fun v => Term.conform_fault v)
  · have hkind := hs.kind_of_returns (Evaluation.returns_mapError.1 hv)
    rw [hkind, ← Term.kind_withoutSpans, hsame, Term.kind_withoutSpans, kind]

/-- A conditional with a constant condition and the same conditional with an attribute of that
value as condition agree.  If the value is there, the second has the value of the first in the
kind in which the branches meet, or both fail with the same fault.  If it is missing, both are
missing, and neither branch is evaluated: whatever the branches do, nothing fails and nothing is
drawn. -/
theorem static_agrees_with_dynamic {reference name : String} {f g : Formula} {c : Value}
    (hf : compile ctx condition = .ok f) (hc : f.constant? = some c)
    (hg : compile ctx reference = .ok g) (hname : g.term.attribute? = some name)
    (hkind : g.kind = c.kind) (htruthy : c.kind.isTruthy = true)
    (ha : compile ctx whenTrue = .ok a) (hb : compile ctx whenFalse = .ok b)
    (hstatic : Tree.AdmitsConditional ctx.options.maxParseDepth condition whenTrue whenFalse)
    (hdynamic : Tree.AdmitsConditional ctx.options.maxParseDepth reference whenTrue whenFalse) :
    ∃ s d, compile ctx (Tree.conditionalText condition whenTrue whenFalse) = .ok s ∧
      compile ctx (Tree.conditionalText reference whenTrue whenFalse) = .ok d ∧
      d.kind = a.kind.unify b.kind ∧
      ∀ (later : Context) maxDepth draws, later.row.get? name = some c →
        (c.isMissing = false →
          (if c.truth? = some true then a else b).term.height < maxDepth →
          Converted (a.kind.unify b.kind) ((s.runWithin maxDepth later).outcome draws)
            ((d.runWithin maxDepth later).outcome draws)) ∧
        (c.isMissing = true → 1 < maxDepth →
          (s.runWithin maxDepth later).outcome draws =
              (.ok (Value.missing (a.kind.unify b.kind)), draws) ∧
            (d.runWithin maxDepth later).outcome draws =
              (.ok (Value.missing (a.kind.unify b.kind)), draws)) := by
  have hfkind : f.kind = c.kind := ((wellKinded_of_compile hf).kind_constant hc).symm
  obtain ⟨span, hterm⟩ := Term.eq_attributeRef_of_attribute? hname
  rw [show g.term.kind = c.kind from hkind] at hterm
  obtain ⟨s, hs, hssame⟩ := compile_conditional hf (hfkind ▸ htruthy) ha hb hstatic
  obtain ⟨d, hd, hdsame⟩ := compile_conditional hg (hkind ▸ htruthy) ha hb hdynamic
  have hssame := hssame ⟨0, 0⟩
  have hdsame := hdsame ⟨0, 0⟩
  rw [Term.settled_of_constant hc] at hssame
  rw [hterm, Term.settled_of_not_constant rfl] at hdsame
  have hsruns := runs_of_withoutSpans_eq hssame
  have hdruns := runs_of_withoutSpans_eq hdsame
  have hdkind : d.kind = a.kind.unify b.kind := by
    rw [kind, ← Term.kind_withoutSpans, hdsame]
    rfl
  refine ⟨s, d, hs, hd, hdkind, fun later maxDepth draws hrow => ⟨?present, ?missing⟩⟩
  case present =>
    intro hpresent hheight
    have hdepth : 1 < maxDepth := Nat.lt_of_le_of_lt (Term.height_pos _) hheight
    have htruth : c.truth? ≠ none := fun h =>
      Bool.false_ne_true (hpresent.symm.trans ((Value.truth?_eq_none_iff htruthy).1 h))
    obtain ⟨chosen, htruth⟩ := Option.ne_none_iff_exists'.1 htruth
    have hrun := hdruns later maxDepth
    rw [Term.evaluate_conditional_of_attribute hrow hdepth] at hrun
    rw [htruth] at hssame hrun hheight
    cases chosen with
    | true =>
        exact converted_branch (wellKinded_of_compile hs) hssame hrun hheight
          (fun v hv => Value.exists_coerce?_branch (.inl hv)) draws
    | false =>
        exact converted_branch (wellKinded_of_compile hs) hssame hrun hheight
          (fun v hv => Value.exists_coerce?_branch (.inr hv)) draws
  case missing =>
    intro hmissing hdepth
    have htruth := (Value.truth?_eq_none_iff htruthy).2 hmissing
    have hrun := hdruns later maxDepth
    have hrun' := hsruns later maxDepth
    rw [Term.evaluate_conditional_of_attribute hrow hdepth, htruth] at hrun
    rw [htruth, Term.evaluate_constant (Nat.lt_of_succ_lt hdepth)] at hrun'
    exact ⟨Evaluation.outcome_of_mapError_eq_pure hrun' draws,
      Evaluation.outcome_of_mapError_eq_pure hrun draws⟩

/-- A truth value chooses between a whole number and another number. -/
theorem static_agrees_with_dynamic_of_numbers :
    ∃ ctx s d, ctx.row.get? "x" = some (.ofBool true) ∧
      compile ctx "if(TRUE, 1, 2.5)" = .ok s ∧ compile ctx "if([x], 1, 2.5)" = .ok d ∧
      d.kind = .double ∧
      ∀ draws, Converted .double ((s.run ctx).outcome draws) ((d.run ctx).outcome draws) := by
  let ctx : Context :=
    { row := Row.ofList [("x", .ofBool true)], constants := Catalog.constants }
  have hcondition : ((compile ctx "TRUE").toOption.any fun f =>
      f.constant? = some (.ofBool true)) = true := by
    decide +kernel
  have hreference : ((compile ctx "[x]").toOption.any fun g =>
      g.term.attribute? = some "x" ∧ g.kind = .boolean) = true := by
    decide +kernel
  have hbranch : ((compile ctx "1").toOption.any fun a =>
      a.kind = .integer ∧ a.term.height = 1) = true := by
    decide +kernel
  have hbranch' : ((compile ctx "2.5").toOption.any fun b => b.kind = .double) = true := by
    decide +kernel
  have hparts : ∀ part ∈ ["TRUE", "[x]", "1", "2.5"], ((Tree.parse ctx.options.maxParseDepth
      part).toOption.all fun tree => tree.height < ctx.options.maxParseDepth) = true := by
    decide +kernel
  have hheight : ∀ part ∈ ["TRUE", "[x]", "1", "2.5"], ∀ tree,
      Tree.parse ctx.options.maxParseDepth part = .ok tree →
        tree.height < ctx.options.maxParseDepth := by
    intro part hpart tree htree
    have hcheck := hparts part hpart
    rw [htree] at hcheck
    exact of_decide_eq_true hcheck
  obtain ⟨f, hf, hconstant⟩ := (Option.any_eq_true _ _).1 hcondition
  obtain ⟨g, hg, hattribute⟩ := (Option.any_eq_true _ _).1 hreference
  obtain ⟨a, ha, hkind⟩ := (Option.any_eq_true _ _).1 hbranch
  obtain ⟨b, hb, hkind'⟩ := (Option.any_eq_true _ _).1 hbranch'
  obtain ⟨hname, hgkind⟩ := of_decide_eq_true hattribute
  obtain ⟨hakind, haheight⟩ := of_decide_eq_true hkind
  have hbkind := of_decide_eq_true hkind'
  have hstatic : ∀ part ∈ ["TRUE", "1", "2.5"], part ∈ ["TRUE", "[x]", "1", "2.5"] := by decide
  obtain ⟨s, d, hs, hd, hdkind, hruns⟩ := static_agrees_with_dynamic
    (toOption_eq_some_iff.1 hf) (of_decide_eq_true hconstant) (toOption_eq_some_iff.1 hg) hname
    hgkind rfl (toOption_eq_some_iff.1 ha) (toOption_eq_some_iff.1 hb)
    ⟨by decide +kernel, fun part hpart => hheight part (hstatic part hpart)⟩
    ⟨by decide +kernel, fun part hpart => hheight part (List.mem_cons_of_mem _ hpart)⟩
  rw [show Tree.conditionalText "TRUE" "1" "2.5" = "if(TRUE, 1, 2.5)" by decide +kernel] at hs
  rw [show Tree.conditionalText "[x]" "1" "2.5" = "if([x], 1, 2.5)" by decide +kernel] at hd
  rw [hakind, hbkind] at hdkind hruns
  refine ⟨ctx, s, d, rfl, hs, hd, hdkind, fun draws => ?_⟩
  refine (hruns ctx ctx.options.maxDepth draws rfl).1 rfl ?_
  rw [if_pos (show (Value.ofBool true).truth? = some true from rfl), haheight]
  decide

end Formula

end RowFormula
