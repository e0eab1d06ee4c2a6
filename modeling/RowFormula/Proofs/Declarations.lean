/-
# Compiling depends on declarations alone

A formula is compiled against one row and may run against many others.  This is sound
because compiling asks a row for names and kinds only.  The place where it could go wrong is
the rule for the kind of a call: a rule is handed the values of the row, the macros and the
parameters as well, and one that used them would freeze them into the formula.  The rules of
the catalog do not, not even through the formulas that they compile themselves.

The two-run statement `compile_depends_on_declarations` compares contexts that share what a
formula may be resolved against and differ in everything else.
-/

import RowFormula.Engine
import RowFormula.Proofs.WellKinded

namespace RowFormula

namespace Row

/-- The rows declare the same attributes: the same names with the same kinds, whatever the
values are. -/
def SameKinds (r s : Row) : Prop :=
  ∀ name, r.kind? name = s.kind? name

theorem SameKinds.symm {r s : Row} (h : r.SameKinds s) : s.SameKinds r :=
  fun name => (h name).symm

/-- Taking all values away leaves the declarations alone. -/
theorem sameKinds_clear (r : Row) : r.SameKinds r.clear := by
  intro name
  simp only [kind?, get?, clear, Table.get?_map, Option.map_map]
  congr 1
  funext v
  exact (Value.kind_missing v.kind).symm

/-- Giving an attribute another value leaves the declarations alone. -/
theorem sameKinds_set {r s : Row} {name : String} {value : Value} (h : r.set name value = .ok s) :
    r.SameKinds s := by
  obtain ⟨old, new, hold, hnew, rfl⟩ := get?_set h
  intro other
  rw [kind?, kind?, get?_insert]
  split
  · rename_i hname
    rw [← hname, hold, Option.map_some, Option.map_some, Value.kind_of_coerce? hnew]
  · rfl

end Row

/-- The contexts share everything that a formula is resolved against.  They may differ in
the values of attributes, in macros, in the process and its parameters, and in the time. -/
structure Context.SameDeclarations (ctx other : Context) : Prop where
  functions : other.functions = ctx.functions
  constants : other.constants = ctx.constants
  kinds : other.row.SameKinds ctx.row
  options : other.options = ctx.options
  nesting : other.nesting = ctx.nesting

namespace ResultRule

/-- Requests that differ only in values, macros and parameters get the same answer. -/
def IgnoresValues (rule : ResultRule) : Prop :=
  ∀ (request : KindRequest) attribute? macroText? parameter?,
    rule.resolve { request with
      attribute? := attribute?, macroText? := macroText?, parameter? := parameter? } =
    rule.resolve request

/-- Whether a rule looks at more than the kinds and the number of the arguments. -/
def isCustom : ResultRule → Bool
  | custom _ => true
  | _ => false

theorem ignoresValues_of_not_isCustom {rule : ResultRule} (h : rule.isCustom = false) :
    rule.IgnoresValues := by
  cases rule with
  | custom => cases h
  | _ => exact fun _ _ _ _ => rfl

end ResultRule

/-- All rules of a registry ignore values. -/
def Registry.IgnoresValues (r : Registry) : Prop :=
  ∀ name f, r.get? name = some f → f.result.IgnoresValues

namespace Catalog

/-- The two functions that look formulas and attributes up are the only ones whose kind
takes more than the kinds and the number of their arguments. -/
theorem eq_of_isCustom {f : Function} (hf : f ∈ functions) (hcustom : f.result.isCustom = true) :
    f = nestedFormula ∨ f = attributeByName := by
  rw [functions, List.mem_append] at hf
  obtain hf | hf := hf
  · have hplain := List.all_eq_true.1 (rfl : List.all _ (fun f => !f.result.isCustom) = true) f hf
    rw [hcustom] at hplain
    cases hplain
  · simpa [indirection] using hf

theorem ignoresValues_of_mem {f : Function} (hf : f ∈ functions) : f.result.IgnoresValues := by
  cases hcustom : f.result.isCustom with
  | false => exact ResultRule.ignoresValues_of_not_isCustom hcustom
  | true => obtain rfl | rfl := eq_of_isCustom hf hcustom <;> exact fun _ _ _ _ => rfl

theorem registry_ignoresValues : registry.IgnoresValues := by
  intro name f hf
  obtain ⟨g, hg, serial, -, rfl⟩ := Registry.exists_mem_of_get?_ofList hf
  show g.result.IgnoresValues
  exact ignoresValues_of_mem hg

end Catalog

namespace Term

section Resolving

variable {formulaKind : String → Except KindFault Kind} {ctx other : Context} {source : String}

theorem ofAttribute_eq (h : ctx.SameDeclarations other) (unknown : TypeFault) (name : String)
    (span : Span) :
    ofAttribute other source unknown name span = ofAttribute ctx source unknown name span := by
  rw [ofAttribute, ofAttribute, h.kinds name]

theorem ofIdent_eq (h : ctx.SameDeclarations other) (name : String) (span : Span) :
    ofIdent other source name span = ofIdent ctx source name span := by
  rw [ofIdent, ofIdent, h.constants, ofAttribute_eq h]

theorem functionFor_eq (h : ctx.SameDeclarations other) (name : String) (count : Nat)
    (span : Span) :
    functionFor other source name count span = functionFor ctx source name count span := by
  rw [functionFor, functionFor, h.functions]

theorem kindRequest_eq (h : ctx.SameDeclarations other) (args : List ArgInfo) :
    other.kindRequest formulaKind args =
      { ctx.kindRequest formulaKind args with
        attribute? := other.row.get?
        macroText? := other.macros.get?
        parameter? := other.parameter? } := by
  have hkinds : other.row.kind? = ctx.row.kind? := funext h.kinds
  simp only [Context.kindRequest, hkinds, h.nesting]

theorem callKind_eq (h : ctx.SameDeclarations other) {f : Function}
    (hf : f.result.IgnoresValues) (name : String) (span : Span) (args : List Term) :
    callKind formulaKind other source name span f args =
      callKind formulaKind ctx source name span f args := by
  unfold callKind
  simp only [kindRequest_eq h, hf _ _ _ _]

theorem ofTrees_eq {trees : List Tree}
    (h : ∀ tree ∈ trees,
      ofTree formulaKind other source tree = ofTree formulaKind ctx source tree) :
    ofTrees formulaKind other source trees = ofTrees formulaKind ctx source trees := by
  induction trees with
  | nil => rfl
  | cons tree trees ih =>
      rw [ofTrees, ofTrees, h tree List.mem_cons_self,
        ih fun t ht => h t (List.mem_cons_of_mem _ ht)]

/-- Resolving a tree gives the same term or the same error in both contexts.  The induction
is on the tree; only names and calls look at the context. -/
theorem ofTree_eq (h : ctx.SameDeclarations other) (hfunctions : ctx.functions.IgnoresValues)
    (tree : Tree) :
    ofTree formulaKind other source tree = ofTree formulaKind ctx source tree := by
  induction tree with
  | integer | float | text | macroRef => rfl
  | ident name span => rw [ofTree, ofTree, ofIdent_eq h]
  | attributeRef name span => rw [ofTree, ofTree, ofAttribute_eq h]
  | unary op span operand ih => rw [ofTree, ofTree, ih]
  | arithmetic op span left right ihl ihr => rw [ofTree, ofTree, ihl, ihr]
  | comparison op span left right ihl ihr => rw [ofTree, ofTree, ihl, ihr]
  | logical op span left right ihl ihr => rw [ofTree, ofTree, ihl, ihr]
  | call name span args ih =>
      by_cases hname : name = conditionalName
      · subst hname
        rcases args with _ | ⟨condition, _ | ⟨whenTrue, _ | ⟨whenFalse, _ | ⟨_, _⟩⟩⟩⟩
        · rfl
        · rfl
        · rfl
        · rw [ofTree, ofTree, if_pos rfl, if_pos rfl, ih condition (by simp),
            ih whenTrue (by simp), ih whenFalse (by simp)]
        · rfl
      · rw [ofTree_call hname, ofTree_call hname, functionFor_eq h, ofTrees_eq ih]
        cases hf : functionFor ctx source name args.length span with
        | error => rfl
        | ok f =>
            have hrule := hfunctions name f (functionFor_eq_ok hf).1
            show (ofTrees formulaKind ctx source args >>=
                ofCall formulaKind other source name span f) =
              ofTrees formulaKind ctx source args >>= ofCall formulaKind ctx source name span f
            congr 1
            funext ts
            rw [ofCall, ofCall, callKind_eq h hrule]

end Resolving

end Term

theorem Context.SameDeclarations.nested {ctx other : Context} (h : ctx.SameDeclarations other) :
    ctx.nested.SameDeclarations other.nested :=
  ⟨h.functions, h.constants, h.kinds, h.options, congrArg (· + 1) h.nesting⟩

namespace Formula

variable {ctx other : Context}

theorem compileWith_eq (h : ctx.SameDeclarations other)
    (hfunctions : ctx.functions.IgnoresValues) (formulaKind : String → Except KindFault Kind)
    (source : String) :
    compileWith formulaKind other source = compileWith formulaKind ctx source := by
  unfold compileWith
  rw [h.options]
  split
  · rfl
  · rw [Term.ofTree_eq h hfunctions]

/-- The kinds of nested formulas agree as well, at every level. -/
theorem nestedKind_eq (h : ctx.SameDeclarations other)
    (hfunctions : ctx.functions.IgnoresValues) (levels : Nat) :
    nestedKind levels other = nestedKind levels ctx := by
  induction levels generalizing ctx other with
  | zero =>
      funext text
      rw [nestedKind, nestedKind, h.options]
  | succ levels ih =>
      funext text
      rw [nestedKind, nestedKind, ih h.nested hfunctions, compileWith_eq h.nested hfunctions]

theorem compile_eq (h : ctx.SameDeclarations other) (hfunctions : ctx.functions.IgnoresValues)
    (source : String) : compile other source = compile ctx source := by
  have hlevels : other.levels = ctx.levels := by
    rw [Context.levels, Context.levels, h.options, h.nesting]
  rw [compile, compile, hlevels, nestedKind_eq h hfunctions, compileWith_eq h hfunctions]

/-- Compiling looks at nothing but the engine and the declarations of the row.  Contexts that
differ in values, macros, parameters, process or time compile every text alike, and the texts
of nested formulas too; so a formula compiled for one row runs on another row with the same
declarations as if it had been compiled there.  A text that does not compile leaves the
random numbers alone. -/
theorem compile_depends_on_declarations {engine : Engine} {r s : Row}
    (hcatalog : engine.functions = Catalog.registry) (hsame : r.SameKinds s)
    (now later : Calendar.Instant) (source : String) :
    (∀ other, (engine.context now r).SameDeclarations other →
      compile other source = compile (engine.context now r) source ∧
        ∀ levels, nestedKind levels other = nestedKind levels (engine.context now r)) ∧
    compile (engine.context later s) source = compile (engine.context now r) source ∧
    (∀ f, compile (engine.context now r) source = .ok f →
      (f.run (engine.context later s)).mapError .failed =
        evaluate (engine.context later s) source) ∧
    ∀ e, compile (engine.context now r) source = .error e → ∀ draws,
      (evaluate (engine.context later s) source).outcome draws = (.error e, draws) := by
  have hfunctions : (engine.context now r).functions.IgnoresValues := by
    show engine.functions.IgnoresValues
    exact hcatalog ▸ Catalog.registry_ignoresValues
  have hrows : (engine.context now r).SameDeclarations (engine.context later s) :=
    ⟨rfl, rfl, hsame.symm, rfl, rfl⟩
  have hcompile := compile_eq hrows hfunctions source
  refine ⟨fun other h => ⟨compile_eq h hfunctions source, nestedKind_eq h hfunctions⟩,
    hcompile, ?_, ?_⟩
  · intro f hf
    rw [evaluate, hcompile, hf]
  · intro e he draws
    rw [evaluate, hcompile, he]
    exact Evaluation.outcome_throw e draws

/-- The kind of the nested formula is found although the second row has no value. -/
theorem compile_depends_on_declarations_of_cleared :
    ∃ f, compile (({} : Engine).context ⟨0, 0⟩ (Row.ofList [("a", .integer 2)]))
        "eval(\"[a] + 1\") / 2" = .ok f ∧ f.kind = .double ∧
      compile (({} : Engine).context ⟨9, 0⟩ (Row.ofList [("a", .integer 2)]).clear)
        "eval(\"[a] + 1\") / 2" = .ok f := by
  have hcheck : ((compile (({} : Engine).context ⟨0, 0⟩ (Row.ofList [("a", .integer 2)]))
      "eval(\"[a] + 1\") / 2").toOption.any fun f => f.kind = .double) = true := by
    decide +kernel
  obtain ⟨f, hf, hkind⟩ := (Option.any_eq_true _ _).1 hcheck
  have hcompile := toOption_eq_some_iff.1 hf
  refine ⟨f, hcompile, of_decide_eq_true hkind, ?_⟩
  have hsame := Row.sameKinds_clear (Row.ofList [("a", .integer 2)])
  rw [(compile_depends_on_declarations rfl hsame ⟨0, 0⟩ ⟨9, 0⟩ _).2.1]
  exact hcompile

end Formula

end RowFormula
