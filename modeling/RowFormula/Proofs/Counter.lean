/-
# The counter of the depth

The evaluator is told how deep a term stands.  Here the depth is a counter instead: it is part of
the state, every node adds one before it looks at its parts and takes it away again afterwards, and
a formula starts with whatever the one before it has left.  Both do the same (`Follows`), because
the counter is put back in every case, and so one counter does for any number of formulas.

A counting evaluation also tells apart why it stops: a node of its own may stand too deep, or
something else fails, be it a function that reports a depth.  Only in the first case does a higher
limit change anything.
-/

import RowFormula.Proofs.Depth

namespace RowFormula

/-- Why a counting evaluation stops without a value. -/
inductive Stop where
  /-- A node would be this deep. -/
  | tooDeep (depth : Nat) (span : Span)
  | failed (error : EvaluationError)

namespace Stop

/-- The error that is reported. -/
def error (maxDepth : Nat) : Stop → EvaluationError
  | tooDeep depth span => .located (.depthExceeded depth maxDepth) span
  | failed e => e

def isTooDeep : Stop → Bool
  | tooDeep .. => true
  | failed _ => false

end Stop

/-- What an evaluator keeps: the number of nodes that it is inside of, and the draws of the
context. -/
structure Evaluator where
  depth : Nat := 0
  draws : Random.Draws

/-- A computation of an evaluator. -/
abbrev Counted (α : Type) : Type := ExceptT Stop (StateM Evaluator) α

namespace Counted

variable {α β : Type}

/-- Result and state of a computation that starts in some state. -/
def outcome (x : Counted α) (s : Evaluator) : Except Stop α × Evaluator :=
  x.run.run s

/-- A computation that does not look at the counter. -/
def lift (x : Term.Run α) : Counted α :=
  ExceptT.mk fun s => ((x.outcome s.draws).1.mapError .failed,
    { s with draws := (x.outcome s.draws).2 })

/-- Goes one level deeper for a computation.  The level is left again even if the computation
fails. -/
def deeper (maxDepth : Nat) (span : Span) (x : Counted α) : Counted α :=
  ExceptT.mk do
    let s ← get
    if maxDepth ≤ s.depth then
      pure (.error (.tooDeep (s.depth + 1) span))
    else do
      set { s with depth := s.depth + 1 }
      let r ← x.run
      modify fun s => { s with depth := s.depth - 1 }
      pure r

theorem outcome_bind (x : Counted α) (f : α → Counted β) (s : Evaluator) :
    (x >>= f).outcome s =
      match x.outcome s with
      | (.ok a, later) => (f a).outcome later
      | (.error e, later) => (.error e, later) := by
  simp only [outcome, ExceptT.run_bind, StateT.run_bind]
  rcases x.run.run s with ⟨_ | a, later⟩ <;> rfl

theorem outcome_deeper_of_le {maxDepth : Nat} {s : Evaluator} (h : maxDepth ≤ s.depth)
    (span : Span) (x : Counted α) :
    (deeper maxDepth span x).outcome s = (.error (.tooDeep (s.depth + 1) span), s) := by
  show (StateT.run (ite _ _ _) s) = _
  rw [if_pos h]
  rfl

theorem outcome_deeper_of_lt {maxDepth : Nat} {s : Evaluator} (h : s.depth < maxDepth)
    (span : Span) (x : Counted α) :
    (deeper maxDepth span x).outcome s =
      ((x.outcome { s with depth := s.depth + 1 }).1,
        { (x.outcome { s with depth := s.depth + 1 }).2 with
          depth := (x.outcome { s with depth := s.depth + 1 }).2.depth - 1 }) := by
  show (StateT.run (ite _ _ _) s) = _
  rw [if_neg (Nat.not_le.2 h)]
  rfl

end Counted

namespace Term

section Counting

variable (evaluateFormula : String → Evaluation EvaluationFault Value) (ctx : Context)
variable (maxDepth : Nat)

open Counted (deeper lift)

mutual

/-- Evaluates a term and counts its depth. -/
def counted : Term → Counted Value
  | constant _ span value => deeper maxDepth span (pure value)
  | attributeRef k span name => deeper maxDepth span (lift (attributeValue ctx k span name))
  | macroRef span name => deeper maxDepth span (lift (macroValue ctx span name))
  | unary _ span op operand => deeper maxDepth span do
    let x ← counted operand
    pure (Value.unary op x)
  | arithmetic k span op left right => deeper maxDepth span do
    let x ← counted left
    let y ← counted right
    pure (Value.arithmetic op k x y)
  | comparison span op left right => deeper maxDepth span do
    let x ← counted left
    let y ← counted right
    pure (Value.ofBool (Value.compare op x y))
  | logical span op left right => deeper maxDepth span do
    let x ← counted left
    let y ← counted right
    pure (Value.logical op x y)
  | conditional k span condition whenTrue whenFalse => deeper maxDepth span do
    let c ← counted condition
    match c.truth? with
    | some true => do
      let v ← counted whenTrue
      lift (conform k span v)
    | some false => do
      let v ← counted whenFalse
      lift (conform k span v)
    | none => pure (Value.missing k)
  | call k span f args => deeper maxDepth span do
    let values ← countedAll args
    lift (apply evaluateFormula ctx k span f values)
  termination_by structural t => t

/-- Evaluates terms from first to last and counts their depth. -/
def countedAll : List Term → Counted (List Value)
  | [] => pure []
  | t :: ts => do
    let v ← counted t
    let vs ← countedAll ts
    pure (v :: vs)
  termination_by structural ts => ts

end

end Counting

end Term

namespace Counted

variable {α β : Type}

/-! ### Depth as a counter and as an argument -/

/-- A counting computation does what a computation does that is told its depth, and leaves the
counter as it has found it.  It is too deep only by one level, and only at places in `P`. -/
def Follows (maxDepth : Nat) (P : Span → Prop) (depth : Nat) (x : Counted α)
    (y : Term.Run α) : Prop :=
  ∀ draws, ∃ r later, x.outcome ⟨depth, draws⟩ = (r, ⟨depth, later⟩) ∧
    y.outcome draws = (r.mapError (Stop.error maxDepth), later) ∧
    ∀ d span, r = .error (.tooDeep d span) → d = maxDepth + 1 ∧ P span

namespace Follows

variable {maxDepth depth : Nat} {P Q : Span → Prop}

theorem mono {x : Counted α} {y : Term.Run α} (h : Follows maxDepth P depth x y)
    (hPQ : ∀ span, P span → Q span) : Follows maxDepth Q depth x y := by
  intro draws
  obtain ⟨r, later, hx, hy, hstop⟩ := h draws
  exact ⟨r, later, hx, hy, fun d span hr => (hstop d span hr).imp_right (hPQ span)⟩

theorem lift (x : Term.Run α) : Follows maxDepth P depth (lift x) x := by
  intro draws
  refine ⟨_, _, rfl, ?_, fun d span hr => ?_⟩
  · rcases x.outcome draws with ⟨e | a, later⟩ <;> rfl
  · rcases hx : x.outcome draws with ⟨e | a, later⟩ <;> rw [hx] at hr <;> cases hr

theorem pure (a : α) : Follows maxDepth P depth (Pure.pure a) (Pure.pure a) :=
  lift (Pure.pure a)

theorem bind {x : Counted α} {y : Term.Run α} {f : α → Counted β} {g : α → Term.Run β}
    (hx : Follows maxDepth P depth x y) (hf : ∀ a, Follows maxDepth P depth (f a) (g a)) :
    Follows maxDepth P depth (x >>= f) (y >>= g) := by
  intro draws
  obtain ⟨r, later, hx, hy, hstop⟩ := hx draws
  rw [outcome_bind, Evaluation.outcome_bind, hx, hy]
  cases r with
  | error e =>
      exact ⟨.error e, later, rfl, rfl, fun d span hr => hstop d span (by cases hr; rfl)⟩
  | ok a => exact hf a later

/-- The counter is put back however the computation ends. -/
theorem deeper {span : Span} {x : Counted α} {y : Term.Run α} (hdepth : depth ≤ maxDepth)
    (hspan : depth = maxDepth → P span)
    (h : depth < maxDepth → Follows maxDepth P (depth + 1) x y) :
    Follows maxDepth P depth (deeper maxDepth span x)
      (Term.guardDepth maxDepth depth span >>= fun _ => y) := by
  intro draws
  obtain rfl | hlt := Nat.eq_or_lt_of_le hdepth
  · rw [outcome_deeper_of_le (s := ⟨depth, draws⟩) (Nat.le_refl _), Term.guardDepth,
      if_pos (Nat.le_refl _)]
    refine ⟨_, _, rfl, rfl, fun d span' hr => ?_⟩
    cases hr
    exact ⟨rfl, hspan rfl⟩
  · obtain ⟨r, later, hx, hy, hstop⟩ := h hlt draws
    rw [outcome_deeper_of_lt (s := ⟨depth, draws⟩) hlt, hx, Term.guardDepth_of_lt hlt]
    exact ⟨r, later, rfl, hy, hstop⟩

end Follows

/-! ### Two limits -/

/-- Whatever the first computation ends in, except for a node that is too deep, the second ends in
as well. -/
def ExtendedBy (x y : Counted α) : Prop :=
  ∀ s, (∀ d span, (x.outcome s).1 ≠ .error (.tooDeep d span)) → y.outcome s = x.outcome s

namespace ExtendedBy

theorem refl (x : Counted α) : ExtendedBy x x :=
  fun _ _ => rfl

theorem bind {x y : Counted α} {f g : α → Counted β} (hx : ExtendedBy x y)
    (hf : ∀ a, ExtendedBy (f a) (g a)) : ExtendedBy (x >>= f) (y >>= g) := by
  intro s hstop
  rw [outcome_bind] at hstop
  have hxstop : ∀ d span, (x.outcome s).1 ≠ .error (.tooDeep d span) := by
    intro d span hdeep
    rcases hs : x.outcome s with ⟨r, later⟩
    obtain rfl : r = .error (.tooDeep d span) := by rwa [hs] at hdeep
    rw [hs] at hstop
    exact hstop d span rfl
  rw [outcome_bind, outcome_bind, hx s hxstop]
  rcases hs : x.outcome s with ⟨e | a, later⟩
  · rfl
  · rw [hs] at hstop
    exact hf a later hstop

theorem deeper {maxDepth maxDepth' : Nat} (hle : maxDepth ≤ maxDepth') (span : Span)
    {x y : Counted α} (h : ExtendedBy x y) :
    ExtendedBy (deeper maxDepth span x) (deeper maxDepth' span y) := by
  intro s hstop
  obtain hlt | hdeep := Nat.lt_or_ge s.depth maxDepth
  · rw [outcome_deeper_of_lt hlt] at hstop
    rw [outcome_deeper_of_lt hlt, outcome_deeper_of_lt (Nat.lt_of_lt_of_le hlt hle), h _ hstop]
  · rw [outcome_deeper_of_le hdeep] at hstop
    exact absurd rfl (hstop _ _)

end ExtendedBy

end Counted

namespace Term

variable {evaluateFormula : String → Evaluation EvaluationFault Value} {ctx : Context}
variable {maxDepth maxDepth' depth : Nat}

open Counted (Follows ExtendedBy)

/-- A node of the term is at this place, and so deep in it that nothing of the limit is left. -/
def StandsTooDeep (maxDepth depth : Nat) (t : Term) (span : Span) : Prop :=
  ∃ node, t.HasNode node ∧ maxDepth + node.height ≤ depth + t.height ∧ node.span = span

theorem StandsTooDeep.ofPart {t part : Term} {span : Span} (hpart : part ∈ t.parts)
    (h : part.StandsTooDeep maxDepth (depth + 1) span) : t.StandsTooDeep maxDepth depth span := by
  obtain ⟨node, hnode, hdepth, hspan⟩ := h
  have := height_lt_of_mem_parts hpart
  exact ⟨node, .ofPart hpart hnode, by omega, hspan⟩

/-- The head of a node: what remains is what is done one level deeper. -/
theorem follows_node {t : Term} {x : Counted Value} {y : Run Value} (hdepth : depth ≤ maxDepth)
    (h : depth < maxDepth → Follows maxDepth (t.StandsTooDeep maxDepth depth) (depth + 1) x y) :
    Follows maxDepth (t.StandsTooDeep maxDepth depth) depth (Counted.deeper maxDepth t.span x)
      (guardDepth maxDepth depth t.span >>= fun _ => y) :=
  .deeper hdepth (fun hlimit => ⟨t, .self, by omega, rfl⟩) h

theorem follows_countedAll {ts : List Term} {P : Span → Prop}
    (h : ∀ t ∈ ts, Follows maxDepth P depth (counted evaluateFormula ctx maxDepth t)
      (t.evaluate evaluateFormula ctx maxDepth depth)) :
    Follows maxDepth P depth (countedAll evaluateFormula ctx maxDepth ts)
      (evaluateAll evaluateFormula ctx maxDepth depth ts) := by
  induction ts with
  | nil => exact .pure []
  | cons t ts ih =>
      rw [countedAll, evaluateAll]
      obtain ⟨ht, hts⟩ := List.forall_mem_cons.1 h
      exact ht.bind fun v => (ih hts).bind fun vs => .pure (v :: vs)

/-- Counting the depth of a term comes to the same as being told it. -/
theorem follows_counted (t : Term) (hdepth : depth ≤ maxDepth) :
    Follows maxDepth (t.StandsTooDeep maxDepth depth) depth
      (t.counted evaluateFormula ctx maxDepth) (t.evaluate evaluateFormula ctx maxDepth depth) := by
  induction t using parts_induct generalizing depth with
  | node t ih =>
      have hpart : depth < maxDepth → ∀ part ∈ t.parts,
          Follows maxDepth (t.StandsTooDeep maxDepth depth) (depth + 1)
            (part.counted evaluateFormula ctx maxDepth)
            (part.evaluate evaluateFormula ctx maxDepth (depth + 1)) :=
        fun hlt part hpart => (ih part hpart hlt).mono fun _ hspan => .ofPart hpart hspan
      cases t with
      | constant k span v =>
          rw [counted, evaluate]
          exact follows_node (t := .constant k span v) hdepth fun _ => .pure v
      | attributeRef k span name =>
          rw [counted, evaluate]
          exact follows_node (t := .attributeRef k span name) hdepth fun _ => .lift _
      | macroRef span name =>
          rw [counted, evaluate]
          exact follows_node (t := .macroRef span name) hdepth fun _ => .lift _
      | unary k span op x =>
          rw [counted, evaluate]
          refine follows_node (t := .unary k span op x) hdepth fun hlt => ?_
          exact (hpart hlt x (by simp [parts])).bind fun v => .pure _
      | arithmetic k span op x y =>
          rw [counted, evaluate]
          refine follows_node (t := .arithmetic k span op x y) hdepth fun hlt => ?_
          exact (hpart hlt x (by simp [parts])).bind fun v =>
            (hpart hlt y (by simp [parts])).bind fun w => .pure _
      | comparison span op x y =>
          rw [counted, evaluate]
          refine follows_node (t := .comparison span op x y) hdepth fun hlt => ?_
          exact (hpart hlt x (by simp [parts])).bind fun v =>
            (hpart hlt y (by simp [parts])).bind fun w => .pure _
      | logical span op x y =>
          rw [counted, evaluate]
          refine follows_node (t := .logical span op x y) hdepth fun hlt => ?_
          exact (hpart hlt x (by simp [parts])).bind fun v =>
            (hpart hlt y (by simp [parts])).bind fun w => .pure _
      | conditional k span c x y =>
          rw [counted, evaluate]
          refine follows_node (t := .conditional k span c x y) hdepth fun hlt => ?_
          refine (hpart hlt c (by simp [parts])).bind fun v => ?_
          cases v.truth? with
          | none => exact .pure _
          | some chosen =>
              cases chosen with
              | true => exact (hpart hlt x (by simp [parts])).bind fun w => .lift _
              | false => exact (hpart hlt y (by simp [parts])).bind fun w => .lift _
      | call k span f args =>
          rw [counted, evaluate]
          refine follows_node (t := .call k span f args) hdepth fun hlt => ?_
          exact (follows_countedAll (hpart hlt)).bind fun values => .lift _

theorem extendedBy_countedAll {ts : List Term}
    (h : ∀ t ∈ ts, ExtendedBy (t.counted evaluateFormula ctx maxDepth)
      (t.counted evaluateFormula ctx maxDepth')) :
    ExtendedBy (countedAll evaluateFormula ctx maxDepth ts)
      (countedAll evaluateFormula ctx maxDepth' ts) := by
  induction ts with
  | nil => exact .refl _
  | cons t ts ih =>
      rw [countedAll, countedAll]
      obtain ⟨ht, hts⟩ := List.forall_mem_cons.1 h
      exact ht.bind fun v => (ih hts).bind fun vs => .refl _

/-- A higher limit only lets an evaluation go on that was stopped by a node of its own. -/
theorem extendedBy_counted (hle : maxDepth ≤ maxDepth') (t : Term) :
    ExtendedBy (t.counted evaluateFormula ctx maxDepth)
      (t.counted evaluateFormula ctx maxDepth') := by
  induction t with
  | constant | attributeRef | macroRef => exact .deeper hle _ (.refl _)
  | unary k span op x ih => exact .deeper hle span (ih.bind fun v => .refl _)
  | arithmetic k span op x y ihx ihy =>
      exact .deeper hle span (ihx.bind fun v => ihy.bind fun w => .refl _)
  | comparison span op x y ihx ihy =>
      exact .deeper hle span (ihx.bind fun v => ihy.bind fun w => .refl _)
  | logical span op x y ihx ihy =>
      exact .deeper hle span (ihx.bind fun v => ihy.bind fun w => .refl _)
  | conditional k span c x y ihc ihx ihy =>
      refine .deeper hle span (ihc.bind fun v => ?_)
      split
      · exact ihx.bind fun w => .refl _
      · exact ihy.bind fun w => .refl _
      · exact .refl _
  | call k span f args ih =>
      exact .deeper hle span ((extendedBy_countedAll ih).bind fun values => .refl _)

end Term

namespace Formula

variable {ctx : Context} {f : Formula} {d d' : Nat}

/-- Runs a formula with the counter of an evaluator. -/
def counted (d : Nat) (ctx : Context) (f : Formula) : Counted Value :=
  f.term.counted (nestedValue ctx.levels ctx) ctx d

/-- A run with the limit `d` is stopped by a node of the formula itself. -/
def stopsTooDeep (d : Nat) (ctx : Context) (draws : Random.Draws) (f : Formula) : Bool :=
  match ((f.counted d ctx).outcome { draws }).1 with
  | .error e => e.isTooDeep
  | .ok _ => false

/-- Evaluates a formula.  Its text is attached to the error. -/
def evaluateBy (d : Nat) (ctx : Context) (f : Formula) (s : Evaluator) :
    Except EvaluationError Value × Evaluator :=
  (((f.counted d ctx).outcome s).1.mapError fun e => (e.error d).withSource f.source,
    ((f.counted d ctx).outcome s).2)

/-- What is left of an evaluator after it has evaluated formulas, with or without success. -/
def evaluator (d : Nat) (ctx : Context) (s : Evaluator) (fs : List Formula) : Evaluator :=
  fs.foldl (fun s f => (f.evaluateBy d ctx s).2) s

theorem follows_counted (f : Formula) : Counted.Follows d (f.term.StandsTooDeep d 0) 0
    (f.counted d ctx)
    (f.term.evaluate (nestedValue ctx.levels ctx) ctx d 0) :=
  Term.follows_counted f.term (Nat.zero_le d)

/-- A formula runs as an evaluator evaluates it that is inside of no node. -/
theorem outcome_runWithin (f : Formula) (draws : Random.Draws) :
    (f.runWithin d ctx).outcome draws =
      ((f.evaluateBy d ctx { draws }).1, (f.evaluateBy d ctx { draws }).2.draws) := by
  obtain ⟨r, later, hcounted, hterm, -⟩ := @follows_counted ctx d f draws
  rw [runWithin, runWith, Evaluation.outcome_mapError, hterm, evaluateBy, hcounted]
  cases r <;> rfl

/-- An evaluator that is inside of no node is inside of none after it has evaluated a formula. -/
theorem depth_evaluateBy (f : Formula) (draws : Random.Draws) :
    (f.evaluateBy d ctx { draws }).2.depth = 0 := by
  obtain ⟨r, later, hcounted, -⟩ := @follows_counted ctx d f draws
  rw [evaluateBy, hcounted]

/-- The draws after formulas were run one after the other. -/
def drawsAfter (d : Nat) (ctx : Context) (draws : Random.Draws) (fs : List Formula) :
    Random.Draws :=
  fs.foldl (fun draws f => ((f.runWithin d ctx).outcome draws).2) draws

/-- All that is left of formulas that were evaluated is what they drew. -/
theorem evaluator_eq (draws : Random.Draws) (fs : List Formula) :
    evaluator d ctx { draws } fs = { draws := drawsAfter d ctx draws fs } := by
  induction fs generalizing draws with
  | nil => rfl
  | cons f fs ih =>
      have hfresh : (f.evaluateBy d ctx { draws }).2 =
          { draws := ((f.runWithin d ctx).outcome draws).2 } := by
        rw [outcome_runWithin]
        exact congrArg (Evaluator.mk · _) (depth_evaluateBy f draws)
      rw [evaluator, List.foldl_cons, hfresh]
      exact ih _

section Limits

variable {draws : Random.Draws}

theorem stopsTooDeep_eq_true_iff : f.stopsTooDeep d ctx draws = true ↔
    ∃ depth span, ((f.counted d ctx).outcome { draws }).1 = .error (.tooDeep depth span) := by
  unfold stopsTooDeep
  split
  · rename_i e he
    cases e with
    | tooDeep depth span => exact ⟨fun _ => ⟨depth, span, he⟩, fun _ => rfl⟩
    | failed e => exact ⟨nofun, fun ⟨_, _, h⟩ => nomatch he.symm.trans h⟩
  · rename_i v hv
    exact ⟨nofun, fun ⟨_, _, h⟩ => nomatch hv.symm.trans h⟩

/-- A run that is stopped is stopped at a node of the formula. -/
theorem exists_node_of_stopsTooDeep (h : f.stopsTooDeep d ctx draws = true) :
    ∃ node, f.term.HasNode node ∧ d < f.term.height ∧
      ((f.runWithin d ctx).outcome draws).1 = .error
        (.withSource f.source (.located (.depthExceeded (d + 1) d) node.span)) := by
  obtain ⟨depth, span, hdeep⟩ := stopsTooDeep_eq_true_iff.1 h
  obtain ⟨r, later, hcounted, -, hstop⟩ := @follows_counted ctx d f draws
  rw [hcounted] at hdeep
  obtain rfl : r = .error (.tooDeep depth span) := hdeep
  obtain ⟨rfl, node, hnode, hheight, rfl⟩ := hstop depth span rfl
  have hpos := node.height_pos
  refine ⟨node, hnode, by omega, ?_⟩
  rw [outcome_runWithin, evaluateBy, hcounted]
  rfl

/-- No node of a formula stands too deep if the limit admits its height. -/
theorem stopsTooDeep_of_height_le (h : f.term.height ≤ d) :
    f.stopsTooDeep d ctx draws = false := by
  rw [← Bool.not_eq_true]
  intro hstops
  obtain ⟨_, -, hlt, -⟩ := exists_node_of_stopsTooDeep hstops
  omega

/-- A run that was not stopped is the same with every higher limit. -/
theorem outcome_runWithin_of_le (hle : d ≤ d') (h : f.stopsTooDeep d ctx draws = false) :
    (f.runWithin d' ctx).outcome draws = (f.runWithin d ctx).outcome draws := by
  have hstops : ∀ depth span,
      ((f.counted d ctx).outcome { draws }).1 ≠ .error (.tooDeep depth span) :=
    fun depth span hdeep =>
      Bool.false_ne_true (h.symm.trans (stopsTooDeep_eq_true_iff.2 ⟨depth, span, hdeep⟩))
  have hcounted : (f.counted d' ctx).outcome { draws } = (f.counted d ctx).outcome { draws } :=
    Term.extendedBy_counted hle f.term { draws } hstops
  rw [outcome_runWithin, outcome_runWithin, evaluateBy, evaluateBy, hcounted]
  rcases hr : (f.counted d ctx).outcome { draws } with ⟨(⟨depth, span⟩ | e) | v, later⟩
  · exact absurd (congrArg Prod.fst hr) (hstops depth span)
  · rfl
  · rfl

/-- Apart from functions that make one up, an error for the depth is one of a node of the
formula. -/
theorem stopsTooDeep_iff (hfunctions : ctx.functions.KeepsDepth)
    (hf : f.CallsKnown ctx.functions) : f.stopsTooDeep d ctx draws = true ↔
      ∃ e, ((f.runWithin d ctx).outcome draws).1 = .error e ∧ e.fault.exceedsDepth = true := by
  constructor
  · intro h
    obtain ⟨node, -, -, hrun⟩ := exists_node_of_stopsTooDeep h
    exact ⟨_, hrun, rfl⟩
  · rintro ⟨e, he, hdeep⟩
    by_contra hstops
    rw [Bool.not_eq_true] at hstops
    rw [← outcome_runWithin_of_le (Nat.le_max_left d f.term.height) hstops] at he
    exact Bool.false_ne_true ((not_exceedsDepth_of_fails hfunctions hf (Nat.le_max_right _ _)
      ⟨draws, he⟩).symm.trans hdeep)

end Limits

/-- The limit on the depth does nothing but stop evaluations that are deeper.  A run that is not
stopped by a node of the formula ends in the same value or error, with the same draws, under every
higher limit; nothing is stopped if the limit admits the height of the term; and what is stopped
reports a node of the term.  An evaluator that has evaluated other formulas, whatever became of
them, evaluates the next one as a new evaluator would. -/
theorem limit_only_stops (ctx : Context) (f : Formula) (draws : Random.Draws) :
    (∀ d d', d ≤ d' → f.stopsTooDeep d ctx draws = false →
      (f.runWithin d' ctx).outcome draws = (f.runWithin d ctx).outcome draws) ∧
    (∀ d, f.term.height ≤ d → f.stopsTooDeep d ctx draws = false) ∧
    (∀ d, f.stopsTooDeep d ctx draws = true → ∃ node, f.term.HasNode node ∧
      ((f.runWithin d ctx).outcome draws).1 = .error
        (.withSource f.source (.located (.depthExceeded (d + 1) d) node.span))) ∧
    ∀ d fs, let fresh : Evaluator := { draws := drawsAfter d ctx draws fs }
      f.evaluateBy d ctx (evaluator d ctx { draws } fs) = f.evaluateBy d ctx fresh ∧
      (f.runWithin d ctx).outcome fresh.draws =
        ((f.evaluateBy d ctx fresh).1, (f.evaluateBy d ctx fresh).2.draws) := by
  refine ⟨fun d d' => outcome_runWithin_of_le, fun d => stopsTooDeep_of_height_le, fun d h => ?_,
    fun d fs => ⟨?_, outcome_runWithin f _⟩⟩
  · obtain ⟨node, hnode, -, hrun⟩ := exists_node_of_stopsTooDeep h
    exact ⟨node, hnode, hrun⟩
  · rw [evaluator_eq]

/-- A formula that is stopped by its limit, and one that is not and comes after it. -/
theorem limit_only_stops_of_sums :
    let ctx : Context := { row := Row.ofList [("x", .integer 1)] }
    ∃ f g, compile ctx "1 + (1 + [x])" = .ok f ∧ compile ctx "1 + [x]" = .ok g ∧
      f.stopsTooDeep 2 ctx default = true ∧
      (∃ node, f.term.HasNode node ∧ ((f.runWithin 2 ctx).outcome default).1 = .error
        (.withSource f.source (.located (.depthExceeded 3 2) node.span))) ∧
      f.stopsTooDeep 3 ctx default = false ∧
      (g.runWithin 9 ctx).outcome default = (g.runWithin 2 ctx).outcome default ∧
      g.evaluateBy 2 ctx (evaluator 2 ctx { draws := default } [f]) =
        g.evaluateBy 2 ctx { draws := drawsAfter 2 ctx default [f] } := by
  intro ctx
  have hdeep : ((compile ctx "1 + (1 + [x])").toOption.any fun f =>
      f.stopsTooDeep 2 ctx default ∧ f.term.height = 3) = true := by
    decide +kernel
  have hflat : ((compile ctx "1 + [x]").toOption.any fun g =>
      !g.stopsTooDeep 2 ctx default) = true := by
    decide +kernel
  obtain ⟨f, hf, hdeep⟩ := (Option.any_eq_true _ _).1 hdeep
  obtain ⟨g, hg, hflat⟩ := (Option.any_eq_true _ _).1 hflat
  obtain ⟨hdeep, hheight⟩ := of_decide_eq_true hdeep
  obtain ⟨-, hadmitted, hstopped, -⟩ := limit_only_stops ctx f default
  obtain ⟨hsame, -, -, hfresh⟩ := limit_only_stops ctx g default
  exact ⟨f, g, toOption_eq_some_iff.1 hf, toOption_eq_some_iff.1 hg, hdeep, hstopped 2 hdeep,
    hadmitted 3 (Nat.le_of_eq hheight), hsame 2 9 (by decide) (by simpa using hflat),
    (hfresh 2 [f]).1⟩

end Formula

end RowFormula
