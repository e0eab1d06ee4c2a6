/-
# Formulas inside of formulas

The kinds and values of nested formulas are computed level by level.  Here the levels are
hidden again: a text is refused where the context is nested as deep as its limit allows, and
is compiled and run one level deeper otherwise.

An error of a nested formula stands inside the error of the formula around it, and
`Error.within?` follows errors inwards.
-/

import RowFormula.Proofs.Nodes

namespace RowFormula

/-- The failed evaluation that an error reports so many formulas further in. -/
def Error.within? : Error → Nat → Option EvaluationError
  | .failed e, 0 => some e
  | .failed (.mk (.nested _ error) _ _), n + 1 => error.within? n
  | _, _ => none

namespace Error

theorem within?_failed_succ_eq_some_iff {e₀ e : EvaluationError} {n : Nat} :
    (failed e₀).within? (n + 1) = some e ↔
      ∃ text error, e₀.fault = .nested text error ∧ error.within? n = some e := by
  obtain ⟨fault, span, source⟩ := e₀
  cases fault with
  | nested text error =>
      constructor
      · exact fun h => ⟨text, error, rfl, h⟩
      · rintro ⟨text', error', h, hn⟩
        cases h
        exact hn
  | _ => exact ⟨nofun, fun ⟨_, _, h, _⟩ => nomatch h⟩

end Error

/-- The context in which formulas are evaluated so many levels further in. -/
def Context.nestedBy (ctx : Context) (n : Nat) : Context :=
  { ctx with nesting := ctx.nesting + n }

theorem Context.nestedBy_succ (ctx : Context) (n : Nat) :
    ctx.nestedBy (n + 1) = ctx.nested.nestedBy n := by
  rw [nestedBy, nestedBy, nested, Nat.add_assoc, Nat.add_comm 1]

namespace Formula

variable {ctx : Context} {source text : String}

theorem levels_nested {levels : Nat} (h : ctx.levels = levels + 1) :
    ctx.nested.levels = levels := by
  rw [Context.levels] at h ⊢
  show ctx.options.maxNesting - (ctx.nesting + 1) = levels
  omega

theorem nestedKind_levels (ctx : Context) (text : String) :
    nestedKind ctx.levels ctx text =
      if ctx.options.maxNesting ≤ ctx.nesting then
        .error (.nestingTooDeep ctx.options.maxNesting)
      else
        match compile ctx.nested text with
        | .ok f => .ok f.kind
        | .error e => .error (.invalidFormula text e) := by
  cases hlevels : ctx.levels with
  | zero =>
      rw [nestedKind, if_pos (Nat.sub_eq_zero_iff_le.1 hlevels)]
  | succ levels =>
      have hdeeper := levels_nested hlevels
      have hopen : ¬ ctx.options.maxNesting ≤ ctx.nesting := by
        rw [Context.levels] at hlevels
        omega
      cases hf : compileWith (nestedKind levels ctx.nested) ctx.nested text with
      | error e => rw [nestedKind, if_neg hopen, compile, hdeeper, hf]
      | ok f => rw [nestedKind, if_neg hopen, compile, hdeeper, hf]

theorem nestedValue_levels (ctx : Context) (text : String) :
    nestedValue ctx.levels ctx text =
      if ctx.options.maxNesting ≤ ctx.nesting then
        throw (.nestingTooDeep ctx.options.maxNesting)
      else (evaluate ctx.nested text).mapError (.nested text) := by
  cases hlevels : ctx.levels with
  | zero =>
      rw [nestedValue, if_pos (Nat.sub_eq_zero_iff_le.1 hlevels)]
  | succ levels =>
      have hdeeper := levels_nested hlevels
      have hopen : ¬ ctx.options.maxNesting ≤ ctx.nesting := by
        rw [Context.levels] at hlevels
        omega
      cases hf : compileWith (nestedKind levels ctx.nested) ctx.nested text with
      | error e =>
          rw [nestedValue, if_neg hopen, evaluate, compile, hdeeper, hf]
          rfl
      | ok f =>
          rw [nestedValue, if_neg hopen, evaluate, compile, hdeeper, hf]
          dsimp only
          rw [run, runWithin, hdeeper, Evaluation.mapError_mapError]
          rfl

/-- How a nested formula fails: it is nested too deep, or it fails one level deeper and the
error is wrapped. -/
theorem fails_nestedValue {fault : EvaluationFault}
    (h : (nestedValue ctx.levels ctx text).Fails fault) :
    (ctx.options.maxNesting ≤ ctx.nesting ∧ fault = .nestingTooDeep ctx.options.maxNesting) ∨
      (ctx.nesting < ctx.options.maxNesting ∧
        ∃ error, (evaluate ctx.nested text).Fails error ∧ fault = .nested text error) := by
  rw [nestedValue_levels] at h
  split at h
  · exact .inl ⟨by assumption, (Evaluation.fails_throw.1 h).symm⟩
  · obtain ⟨error, herror, rfl⟩ := Evaluation.fails_mapError.1 h
    exact .inr ⟨Nat.lt_of_not_le (by assumption), error, herror, rfl⟩

/-- The value of a nested formula is one that the formula has one level deeper. -/
theorem returns_nestedValue {v : Value} (h : (nestedValue ctx.levels ctx text).Returns v) :
    ∃ f, compile ctx.nested text = .ok f ∧ (f.run ctx.nested).Returns v := by
  rw [nestedValue_levels] at h
  split at h
  · exact absurd h Evaluation.not_returns_throw
  · rw [Evaluation.returns_mapError, evaluate] at h
    split at h
    · exact absurd h Evaluation.not_returns_throw
    · exact ⟨_, by assumption, Evaluation.returns_mapError.1 h⟩

/-- A formula that is compiled and run fails in one of the two steps. -/
theorem fails_evaluate {error : Error} (h : (evaluate ctx source).Fails error) :
    compile ctx source = .error error ∨
      ∃ f e, compile ctx source = .ok f ∧ (f.run ctx).Fails e ∧ error = .failed e := by
  rw [evaluate] at h
  split at h
  · obtain rfl := Evaluation.fails_throw.1 h
    exact .inl (by assumption)
  · obtain ⟨e, he, rfl⟩ := Evaluation.fails_mapError.1 h
    exact .inr ⟨_, e, by assumption, he, rfl⟩

/-- A nested formula whose kind is known compiles: it has values of that kind, and can fail
only while it runs. -/
theorem nestedValue_ensures {k : Kind} (h : nestedKind ctx.levels ctx text = .ok k) :
    (nestedValue ctx.levels ctx text).Ensures (fun v => v.kind = k)
      fun fault => ∃ e, fault = .nested text (.failed e) := by
  rw [nestedKind_levels] at h
  split at h
  · cases h
  · rename_i hopen
    split at h
    · rename_i f hf
      cases h
      constructor
      · intro v hv
        obtain ⟨g, hg, hrun⟩ := returns_nestedValue hv
        obtain rfl := Except.ok.inj (hf.symm.trans hg)
        exact (wellKinded_of_compile hf).kind_of_returns (Evaluation.returns_mapError.1 hrun)
      · intro fault hfault
        obtain ⟨hclosed, -⟩ | ⟨-, error, herror, rfl⟩ := fails_nestedValue hfault
        · exact absurd hclosed hopen
        · obtain hcompile | ⟨-, e, -, -, rfl⟩ := fails_evaluate herror
          · rw [hf] at hcompile
            cases hcompile
          · exact ⟨e, rfl⟩
    · cases h

/-- A text that does not compile is unreadable or ill-typed; no evaluation has failed. -/
theorem compileWith_eq_error {formulaKind : String → Except KindFault Kind} {error : Error}
    (h : compileWith formulaKind ctx source = .error error) :
    (∃ e, error = .unreadable e) ∨ ∃ e, error = .illTyped e := by
  unfold compileWith at h
  split at h
  · cases h
    exact .inl ⟨_, rfl⟩
  · split at h
    · cases h
      exact .inr ⟨_, rfl⟩
    · cases h

theorem within?_of_compile_eq_error {error : Error} (h : compile ctx source = .error error)
    (n : Nat) : error.within? n = none := by
  obtain ⟨e, rfl⟩ | ⟨e, rfl⟩ := compileWith_eq_error h <;> cases n <;> rfl

/-- A run that fails reports the formula and the place of a node that is at fault. -/
theorem fails_runWithin {f : Formula} {maxDepth : Nat} {e : EvaluationError}
    (h : (f.runWithin maxDepth ctx).Fails e) :
    ∃ node depth fault, f.term.HasNode node ∧
      Term.Faults (nestedValue ctx.levels ctx) ctx maxDepth depth node fault ∧
      e = .mk fault (some node.span) (some f.source) := by
  obtain ⟨e, he, rfl⟩ := Evaluation.fails_mapError.1 h
  obtain ⟨node, depth, fault, hnode, hfault, rfl⟩ := Term.blames_of_fails he
  exact ⟨node, depth, fault, hnode, hfault, rfl⟩

end Formula

end RowFormula
