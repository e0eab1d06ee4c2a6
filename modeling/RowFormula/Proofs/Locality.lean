/-
# What a run depends on

A formula is compiled once and then runs for many rows and engines.  Names of functions and
constants are resolved when it is compiled, so a run should depend on nothing but the values
of the attributes that the formula names, the macros, the parameters, the random numbers and
the limit on the depth.  Bodies of functions are handed the whole context all the same.  In
the catalog only three functions use the rest of it (`Catalog.lateNames`): two that look
formulas and attributes up, and one that tells the time.

The main statement compares two runs of one formula in contexts that may differ in all the
rest, for formulas that call none of the three.
-/

import RowFormula.Engine
import RowFormula.Proofs.Depth

namespace RowFormula

/-- The same call with the row, the time and the nesting of another one, and with its answers
to the texts of nested formulas. -/
def Call.movedTo (call there : Call) : Call :=
  { call with
    nesting := there.nesting
    now := there.now
    attribute? := there.attribute?
    evaluateFormula := there.evaluateFormula }

/-- The body uses neither the row nor the time nor the nesting, and evaluates no formulas. -/
def Function.IsLocal (f : Function) : Prop :=
  ∀ (call there : Call) values, f.body (call.movedTo there) values = f.body call values

namespace Catalog

/-- The names of the functions that look something up when they are called. -/
def lateNames : List String := ["eval", "attribute", "date_now"]

/-! Most bodies do not mention what may differ, so there is nothing to compute. -/

theorem isLocal_of_mem_numbers :
    ∀ f ∈ arithmetic ++ mathematical ++ trigonometric ++ rounding ++ statistical ++ bitwise,
      f.IsLocal := by
  simp only [arithmetic, mathematical, trigonometric, rounding, statistical, bitwise,
    List.cons_append, List.nil_append, List.forall_mem_cons]
  and_intros
  all_goals first | exact List.forall_mem_nil _ | exact fun _ _ _ => rfl

theorem isLocal_of_mem_texts :
    ∀ f ∈ logical ++ comparison ++ conversion ++ stringInformation ++ stringTransformation,
      f.IsLocal := by
  simp only [logical, comparison, conversion, stringInformation, stringTransformation,
    List.cons_append, List.nil_append, List.forall_mem_cons]
  and_intros
  all_goals first | exact List.forall_mem_nil _ | exact fun _ _ _ => rfl

/-- All functions of dates but the first one, which tells the time. -/
theorem isLocal_of_mem_dates : ∀ f ∈ date.tail, f.IsLocal := by
  simp only [date, List.tail_cons, List.forall_mem_cons]
  and_intros
  all_goals first | exact List.forall_mem_nil _ | exact fun _ _ _ => rfl

theorem patternOfStyle_movedTo (call there : Call) (localized : Bool) (size part : String) :
    patternOfStyle (call.movedTo there) localized size part =
      patternOfStyle call localized size part := by
  unfold patternOfStyle
  split <;> rfl

theorem isLocal_dateWriting : dateWriting.IsLocal := by
  intro call there values
  dsimp only [dateWriting]
  split
  · rw [patternOfStyle_movedTo]
    rfl
  · rfl

theorem isLocal_localDateWriting : localDateWriting.IsLocal := by
  intro call there values
  dsimp only [localDateWriting]
  split
  · rw [patternOfStyle_movedTo]
    rfl
  · rfl

theorem isLocal_of_mem_dateConversion : ∀ f ∈ dateConversion, f.IsLocal := by
  simp only [dateConversion, List.forall_mem_cons]
  exact ⟨fun _ _ _ => rfl, fun _ _ _ => rfl, isLocal_dateWriting, isLocal_localDateWriting,
    fun _ _ _ => rfl, List.forall_mem_nil _⟩

theorem isLocal_of_mem_process : ∀ f ∈ process, f.IsLocal := by
  simp only [process, List.forall_mem_cons]
  exact ⟨fun _ _ _ => rfl, fun _ _ _ => rfl, fun _ _ _ => rfl, List.forall_mem_nil _⟩

/-- All functions but the late ones are local. -/
theorem isLocal_of_mem {f : Function} (hf : f ∈ functions) (hname : f.name ∉ lateNames) :
    f.IsLocal := by
  have hdate : f ∈ date → f ∈ date.tail := by
    intro hdate
    obtain rfl | htail := List.mem_cons.1 hdate
    · exact absurd (by decide) hname
    · exact htail
  have hindirection : f ∉ indirection := by
    intro hindirection
    simp only [indirection, List.mem_cons, List.not_mem_nil, or_false] at hindirection
    obtain rfl | rfl := hindirection
    · exact hname (by decide)
    · exact hname (by decide)
  simp only [functions, List.mem_append, hindirection, or_false, or_assoc] at hf
  obtain hf | hf | hf | hf | hf | hf | hf | hf | hf | hf | hf | hf | hf | hf := hf
  · exact isLocal_of_mem_numbers f (by simp [hf])
  · exact isLocal_of_mem_texts f (by simp [hf])
  · exact isLocal_of_mem_texts f (by simp [hf])
  · exact isLocal_of_mem_numbers f (by simp [hf])
  · exact isLocal_of_mem_texts f (by simp [hf])
  · exact isLocal_of_mem_dateConversion f hf
  · exact isLocal_of_mem_dates f (hdate hf)
  · exact isLocal_of_mem_numbers f (by simp [hf])
  · exact isLocal_of_mem_numbers f (by simp [hf])
  · exact isLocal_of_mem_numbers f (by simp [hf])
  · exact isLocal_of_mem_texts f (by simp [hf])
  · exact isLocal_of_mem_texts f (by simp [hf])
  · exact isLocal_of_mem_numbers f (by simp [hf])
  · exact isLocal_of_mem_process f hf

theorem isLocal_of_get? {name : String} {f : Function} (h : registry.get? name = some f)
    (hname : f.name ∉ lateNames) : f.IsLocal := by
  obtain ⟨g, hg, serial, -, rfl⟩ := Registry.exists_mem_of_get?_ofList h
  have hlocal : g.IsLocal := isLocal_of_mem hg hname
  exact hlocal

end Catalog

namespace Term

section Evaluating

variable (evaluateFormula evaluateFormula' : String → Evaluation EvaluationFault Value)
variable (ctx other : Context)

/-- A node finds the same in both contexts: its attribute, its macro, or what its function
does with any arguments. -/
def ActsAlike : Term → Prop
  | attributeRef _ _ name => other.row.get? name = ctx.row.get? name
  | macroRef _ name => other.macros.get? name = ctx.macros.get? name
  | call k _ f _ => ∀ values,
    f.body (other.call evaluateFormula' f k) values = f.body (ctx.call evaluateFormula f k) values
  | _ => True

variable {evaluateFormula evaluateFormula' ctx other} {maxDepth depth : Nat}

/-- A term of which all nodes act alike evaluates alike. -/
theorem evaluate_congr {t : Term}
    (h : ∀ node, t.HasNode node → node.ActsAlike evaluateFormula evaluateFormula' ctx other) :
    t.evaluate evaluateFormula' other maxDepth depth =
      t.evaluate evaluateFormula ctx maxDepth depth := by
  induction t generalizing depth with
  | constant => rfl
  | attributeRef k span name =>
      have hname : other.row.get? name = ctx.row.get? name := h _ .self
      rw [evaluate, evaluate, attributeValue, attributeValue, hname]
  | macroRef span name =>
      have hname : other.macros.get? name = ctx.macros.get? name := h _ .self
      rw [evaluate, evaluate, macroValue, macroValue, hname]
  | unary k span op x ih =>
      obtain ⟨-, hparts⟩ := forall_hasNode_iff.1 h
      rw [evaluate, evaluate, ih (hparts x (by simp [parts]))]
  | arithmetic k span op x y ihx ihy =>
      obtain ⟨-, hparts⟩ := forall_hasNode_iff.1 h
      rw [evaluate, evaluate, ihx (hparts x (by simp [parts])), ihy (hparts y (by simp [parts]))]
  | comparison span op x y ihx ihy =>
      obtain ⟨-, hparts⟩ := forall_hasNode_iff.1 h
      rw [evaluate, evaluate, ihx (hparts x (by simp [parts])), ihy (hparts y (by simp [parts]))]
  | logical span op x y ihx ihy =>
      obtain ⟨-, hparts⟩ := forall_hasNode_iff.1 h
      rw [evaluate, evaluate, ihx (hparts x (by simp [parts])), ihy (hparts y (by simp [parts]))]
  | conditional k span c x y ihc ihx ihy =>
      obtain ⟨-, hparts⟩ := forall_hasNode_iff.1 h
      rw [evaluate, evaluate, ihc (hparts c (by simp [parts])), ihx (hparts x (by simp [parts])),
        ihy (hparts y (by simp [parts]))]
  | call k span f args ih =>
      obtain ⟨hself, hparts⟩ := forall_hasNode_iff.1 h
      rw [evaluate, evaluate, evaluateAll_eq fun arg harg => ih arg harg (hparts arg harg)]
      refine congrArg _ (funext fun _ => congrArg _ (funext fun values => ?_))
      rw [apply, apply, hself values]

end Evaluating

end Term

/-- The contexts agree on what a term can depend on: the limit on the depth, the macros, the
parameters of the process and whether there is one to draw random numbers from, and the
values of the attributes that the term names. -/
structure Context.AgreeFor (t : Term) (ctx other : Context) : Prop where
  maxDepth : other.options.maxDepth = ctx.options.maxDepth
  macros : ∀ name, other.macros.get? name = ctx.macros.get? name
  parameters : ∀ operator parameter,
    other.parameter? operator parameter = ctx.parameter? operator parameter
  process : other.process.isSome = ctx.process.isSome
  attributes : ∀ k span name, t.HasNode (.attributeRef k span name) →
    other.row.get? name = ctx.row.get? name

namespace Context.AgreeFor

variable {t : Term} {ctx other : Context}

theorem random (h : AgreeFor t ctx other) : other.random = ctx.random := by
  have hprocess := h.process
  funext seed draws
  rw [Context.random, Context.random]
  cases hctx : ctx.process <;> cases hother : other.process
  · rfl
  · simp [hctx, hother] at hprocess
  · simp [hctx, hother] at hprocess
  · rfl

/-- All that remains different about a call is what local bodies do not use. -/
theorem call (h : AgreeFor t ctx other)
    (evaluateFormula evaluateFormula' : String → Evaluation EvaluationFault Value)
    (f : Function) (k : Kind) :
    other.call evaluateFormula' f k =
      (ctx.call evaluateFormula f k).movedTo (other.call evaluateFormula' f k) := by
  have hmacros : other.macros.get? = ctx.macros.get? := funext h.macros
  have hparameters : other.parameter? = ctx.parameter? :=
    funext fun operator => funext (h.parameters operator)
  simp only [Context.call, Call.movedTo, hmacros, hparameters, h.random]

end Context.AgreeFor

namespace Formula

/-- Where all functions called are local, running a formula looks at nothing but what the
contexts agree on. -/
theorem runWithin_eq {f : Formula} {ctx other : Context} (h : Context.AgreeFor f.term ctx other)
    (hlocal : ∀ k span g args, f.term.HasNode (.call k span g args) → g.IsLocal)
    (maxDepth : Nat) : f.runWithin maxDepth other = f.runWithin maxDepth ctx := by
  rw [runWithin, runWithin, runWith, runWith]
  refine congrArg _ (Term.evaluate_congr fun node hnode => ?_)
  cases node with
  | attributeRef k span name => exact h.attributes k span name hnode
  | macroRef span name => exact h.macros name
  | call k span g args =>
      intro values
      rw [h.call]
      exact hlocal k span g args hnode _ _ values
  | _ => trivial

/-- A formula that calls no late function is bound when it is compiled.  It runs alike, with
the same value or error and the same random numbers, in all contexts that agree on the limit
on the depth, the macros, the parameters, the process and the attributes that it names;
functions, constants, nesting, time, the other limits and all other attributes make no
difference.  So whatever functions are registered and constants are changed in an engine, the
formula runs as before. -/
theorem run_bound_early {ctx : Context} {source : String} {f : Formula}
    (hcatalog : ctx.functions = Catalog.registry) (h : compile ctx source = .ok f)
    (hlate : ∀ k span g args, f.term.HasNode (.call k span g args) →
      g.name ∉ Catalog.lateNames) :
    (∀ here there, Context.AgreeFor f.term here there → f.run there = f.run here) ∧
    ∀ (engine : Engine) functions constants now later row,
      f.run ({ engine with functions, constants }.context later row) =
        f.run (engine.context now row) := by
  have hlocal : ∀ k span g args, f.term.HasNode (.call k span g args) → g.IsLocal := by
    intro k span g args hnode
    obtain ⟨name, hname⟩ := callsKnown_of_compile h k span g args hnode
    exact Catalog.isLocal_of_get? (hcatalog ▸ hname) (hlate k span g args hnode)
  have hrun (here there : Context) (hagree : Context.AgreeFor f.term here there) :
      f.run there = f.run here := by
    rw [run, run, hagree.maxDepth]
    exact runWithin_eq hagree hlocal _
  refine ⟨hrun, fun engine functions constants now later row => hrun _ _ ?_⟩
  exact ⟨rfl, fun _ => rfl, fun _ _ => rfl, rfl, fun _ _ _ _ => rfl⟩

/-- The function and the constant are gone, and another attribute has come, when the formula
runs in the second context. -/
theorem run_bound_early_of_cleared_engine :
    ∃ f, compile (({} : Engine).context ⟨0, 0⟩ (Row.ofList [("a", .integer 2)]))
        "abs([a] - pi)" = .ok f ∧
      f.run (Engine.context { functions := {}, constants := {} } ⟨9, 0⟩
          (Row.ofList [("b", .integer 1), ("a", .integer 2)])) =
        f.run (({} : Engine).context ⟨0, 0⟩ (Row.ofList [("a", .integer 2)])) := by
  have hcheck : ((compile (({} : Engine).context ⟨0, 0⟩ (Row.ofList [("a", .integer 2)]))
      "abs([a] - pi)").toOption.any fun f =>
        f.term.all fun node => node.function?.all (fun g => g.name == "abs") &&
          node.attribute?.all (· == "a")) = true := by
    decide +kernel
  obtain ⟨f, hf, hnodes⟩ := (Option.any_eq_true _ _).1 hcheck
  have hcompile := toOption_eq_some_iff.1 hf
  refine ⟨f, hcompile, (run_bound_early rfl hcompile ?late).1 _ _ ?agree⟩
  case late =>
    intro k span g args hnode
    have hname : g.name = "abs" := eq_of_beq (Bool.and_eq_true_iff.1 (hnode.of_all hnodes)).1
    rw [hname]
    decide
  case agree =>
    refine ⟨rfl, fun _ => rfl, fun _ _ => rfl, rfl, fun k span name hnode => ?_⟩
    have hname : name = "a" := eq_of_beq (Bool.and_eq_true_iff.1 (hnode.of_all hnodes)).2
    rw [hname]
    rfl

end Formula

end RowFormula
