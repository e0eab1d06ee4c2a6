/-
# Heights and depths

Three notions of depth are held against each other: the height that is counted while a tree is
built, the height of the term to which the tree resolves, and the depth to which the term is
evaluated.  None is greater than the one before.  An evaluation whose limit admits every tree
that can be read therefore never reaches the limit, and formulas inside of formulas are read and
evaluated under the same limits again.
-/

import RowFormula.Engine
import RowFormula.Proofs.Origins
import RowFormula.Proofs.Progress
import RowFormula.Proofs.Reading

namespace RowFormula

/-! ### Trees -/

namespace Tree

open Grammar

theorem height_pos (t : Tree) : 0 < t.height := by
  cases t <;> simp [height]

theorem height_le_heights {t : Tree} {ts : List Tree} (h : t ∈ ts) : t.height ≤ heights ts := by
  induction ts with
  | nil => cases h
  | cons u us ih =>
      rw [heights]
      rcases List.mem_cons.1 h with rfl | h
      · exact Nat.le_max_left _ _
      · exact Nat.le_trans (ih h) (Nat.le_max_right _ _)

theorem height_lt_of_mem_parts {t part : Tree} (h : part ∈ t.parts) : part.height < t.height := by
  cases t with
  | integer | float | text | ident | attributeRef | macroRef => cases h
  | unary op span x =>
      obtain rfl := List.mem_singleton.1 h
      exact Nat.lt_succ_self _
  | arithmetic op span x y | comparison op span x y | logical op span x y =>
      simp only [parts, List.mem_cons, List.not_mem_nil, or_false] at h
      rw [height]
      obtain rfl | rfl := h <;> omega
  | call name span args =>
      rw [height]
      exact Nat.lt_succ_of_le (height_le_heights h)

theorem height_withSpan (span : Span) (t : Tree) : (t.withSpan span).height = t.height := by
  cases t <;> rfl

theorem height_infixNode (op : InfixOp) (span : Span) (x y : Tree) :
    (infixNode op span x y).height = max x.height y.height + 1 := by
  cases op <;> rfl

/-- A single operand, which is neither an operator nor a call. -/
def isLeaf : Tree → Bool
  | integer .. | float .. | text .. | ident .. | attributeRef .. | macroRef .. => true
  | _ => false

theorem height_of_isLeaf {t : Tree} (h : t.isLeaf = true) : t.height = 1 := by
  cases t <;> first | rfl | cases h

theorem isLeaf_withSpan (span : Span) (t : Tree) : (t.withSpan span).isLeaf = t.isLeaf := by
  cases t <;> rfl

theorem isLeaf_of_ofLeaf {source : String} {span : Span} {leaf : Leaf} {t : Tree}
    (h : ofLeaf source span leaf = .ok t) : t.isLeaf = true := by
  cases leaf with
  | attributeRef | macroRef | ident =>
      cases h
      rfl
  | float | integer =>
      obtain ⟨x, -, h⟩ := bind_eq_ok_iff.1 h
      cases h
      rfl
  | string content =>
      rw [ofLeaf] at h
      split at h
      · cases h
        rfl
      · cases h

/-- The height that was counted is that of the tree, and within the limit unless the tree is a
single operand. -/
def Built.Measured (maxDepth : Nat) (b : Built) : Prop :=
  b.height = b.tree.height ∧ (b.tree.isLeaf = true ∨ b.height ≤ maxDepth)

/-- Whatever is built is measured. -/
def Measures (maxDepth : Nat) (x : Build Built) : Prop :=
  ∀ b, x = .ok b → b.Measured maxDepth

section Building

variable {source : String} {maxDepth : Nat}

theorem measures_nest {t : Tree} {height : Nat} (h : t.height = height + 1) :
    Measures maxDepth (nest source maxDepth t height) := by
  intro b hb
  obtain ⟨hheight, rfl⟩ := nest_eq_ok hb
  exact ⟨h.symm, .inr hheight⟩

theorem Measures.signed (s : Sign) {x : Build Built} (hx : Measures maxDepth x) :
    Measures maxDepth (signed source maxDepth s x) := by
  intro b hb
  obtain ⟨a, ha, hb⟩ := bind_eq_ok_iff.1 hb
  refine measures_nest ?_ b hb
  rw [height, (hx a ha).1]

theorem Measures.joined (op : InfixOp) {x y : Build Built} (hx : Measures maxDepth x)
    (hy : Measures maxDepth y) : Measures maxDepth (joined source maxDepth op x y) := by
  intro b hb
  obtain ⟨a, ha, hb⟩ := bind_eq_ok_iff.1 hb
  obtain ⟨a', ha', hb⟩ := bind_eq_ok_iff.1 hb
  refine measures_nest ?_ b hb
  rw [height_infixNode, (hx a ha).1, (hy a' ha').1]

theorem measures_assembled {c : Chain} {operands : Sequence (Build Built)}
    (h : ∀ x ∈ operands.operands, Measures maxDepth x) :
    Measures maxDepth (assembled source maxDepth c operands) := by
  unfold assembled
  split
  · exact nofun
  · exact grouped_induct (fun s _ hx => hx.signed s) (fun op _ _ hx hy => hx.joined op hy) h

mutual

theorem measures_operandsOf : ∀ c : Chain,
    ∀ x ∈ (operandsOf source maxDepth c).operands, Measures maxDepth x
  | .single (.mk signs p) => by
      rw [operandsOf, ofOperand]
      exact List.forall_mem_singleton.2 (measures_ofPrimary p)
  | .link (.mk signs p) op span rest => by
      rw [operandsOf, ofOperand]
      exact List.forall_mem_cons.2 ⟨measures_ofPrimary p, measures_operandsOf rest⟩
  termination_by structural c => c

theorem measures_ofPrimary : ∀ p : Primary, Measures maxDepth (ofPrimary source maxDepth p)
  | .group inner span => by
      intro b hb
      rw [ofPrimary] at hb
      obtain ⟨a, ha, hb⟩ := bind_eq_ok_iff.1 hb
      cases hb
      obtain ⟨hheight, hle⟩ := measures_assembled (measures_operandsOf inner) a ha
      rw [← isLeaf_withSpan span] at hle
      exact ⟨hheight.trans (height_withSpan span a.tree).symm, hle⟩
  | .call name args span => by
      intro b hb
      rw [ofPrimary] at hb
      obtain ⟨⟨xs, height⟩, hxs, hb⟩ := bind_eq_ok_iff.1 hb
      refine measures_nest ?_ b hb
      rw [Tree.height, heights_of_ofChains args hxs]
  | .leaf leaf span => by
      intro b hb
      rw [ofPrimary] at hb
      obtain ⟨t, ht, hb⟩ := bind_eq_ok_iff.1 hb
      cases hb
      have hleaf := isLeaf_of_ofLeaf ht
      exact ⟨(height_of_isLeaf hleaf).symm, .inl hleaf⟩
  termination_by structural p => p

theorem heights_of_ofChains : ∀ (cs : List Chain) {xs : List Tree} {height : Nat},
    ofChains source maxDepth cs = .ok (xs, height) → heights xs = height
  | [], xs, height, h => by
      cases h
      rfl
  | c :: cs, xs, height, h => by
      rw [ofChains] at h
      obtain ⟨x, hx, h⟩ := bind_eq_ok_iff.1 h
      obtain ⟨⟨ys, height'⟩, hys, h⟩ := bind_eq_ok_iff.1 h
      cases h
      rw [heights, heights_of_ofChains cs hys,
        (measures_assembled (measures_operandsOf c) x hx).1]
  termination_by structural cs => cs

end

end Building

/-- No tree that is read is higher than the limit, except for a single operand. -/
theorem isLeaf_or_height_le_of_parse {maxDepth : Nat} {source : String} {t : Tree}
    (h : parse maxDepth source = .ok t) : t.isLeaf = true ∨ t.height ≤ maxDepth := by
  unfold parse at h
  split at h
  · cases h
  · split at h
    · cases h
    · rename_i c _
      obtain ⟨b, hb, rfl⟩ := map_eq_ok_iff.1 h
      obtain ⟨hheight, hle⟩ := measures_assembled (measures_operandsOf c) b hb
      rwa [hheight] at hle

theorem height_le_of_parse {maxDepth : Nat} {source : String} {t : Tree}
    (h : parse maxDepth source = .ok t) : t.height ≤ max 1 maxDepth := by
  obtain hleaf | hle := isLeaf_or_height_le_of_parse h
  · exact Nat.le_trans (Nat.le_of_eq (height_of_isLeaf hleaf)) (Nat.le_max_left _ _)
  · exact Nat.le_trans hle (Nat.le_max_right _ _)

end Tree

/-! ### Terms -/

namespace Term

variable {formulaKind : String → Except KindFault Kind} {ctx : Context} {source : String}
variable {evaluateFormula : String → Evaluation EvaluationFault Value}
variable {maxDepth depth : Nat} {e : EvaluationError} {t : Term}

theorem heights_le {ts : List Term} {n : Nat} (h : ∀ t ∈ ts, t.height ≤ n) : heights ts ≤ n := by
  induction ts with
  | nil => exact Nat.zero_le _
  | cons t ts ih =>
      rw [List.forall_mem_cons] at h
      rw [heights]
      exact Nat.max_le.2 ⟨h.1, ih h.2⟩

theorem height_le_of_parts {n : Nat} (h : ∀ part ∈ t.parts, part.height ≤ n) :
    t.height ≤ n + 1 := by
  cases t with
  | constant | attributeRef | macroRef => exact Nat.le_add_left 1 n
  | call k span f args => exact Nat.succ_le_succ (heights_le h)
  | _ =>
      simp only [parts, List.forall_mem_cons, List.not_mem_nil, false_imp_iff, implies_true,
        and_true] at h
      rw [height]
      omega

/-- A term is never higher than the tree that it comes from. -/
theorem height_le_of_ofTree {tree : Tree} (h : ofTree formulaKind ctx source tree = .ok t) :
    t.height ≤ tree.height := by
  refine ofTree_origin_induct (motive := fun tree t => t.height ≤ tree.height) ?node ?branch h
  case node =>
    intro tree t _ hparts
    have hpos := tree.height_pos
    have hheight : t.height ≤ tree.height - 1 + 1 := by
      refine height_le_of_parts fun part hpart => ?_
      obtain ⟨origin, horigin, hle⟩ := hparts part hpart
      have := Tree.height_lt_of_mem_parts horigin
      omega
    omega
  case branch =>
    intro tree origin t horigin hle
    exact Nat.le_trans hle (Nat.le_of_lt (Tree.height_lt_of_mem_parts horigin))

/-- The node at fault stands no deeper than the term is high. -/
theorem failsItself_of_fails (h : (t.evaluate evaluateFormula ctx maxDepth depth).Fails e) :
    ∃ node d, t.HasNode node ∧ d + node.height ≤ depth + t.height ∧
      FailsItself evaluateFormula ctx maxDepth d node e := by
  induction t using parts_induct generalizing depth with
  | node t ih =>
      obtain hself | ⟨part, hpart, hfails⟩ := failsItself_or_part h
      · exact ⟨t, depth, .self, Nat.le_refl _, hself⟩
      · obtain ⟨node, d, hnode, hdepth, hself⟩ := ih part hpart hfails
        have := height_lt_of_mem_parts hpart
        exact ⟨node, d, .ofPart hpart hnode, by omega, hself⟩

end Term

/-! ### Runs -/

/-- A formula was too deep to be evaluated. -/
def EvaluationFault.exceedsDepth : EvaluationFault → Bool
  | depthExceeded .. => true
  | _ => false

/-- The bodies of all functions report such a fault only if a formula has it that they
evaluate.  They have no other way to report it. -/
def Registry.KeepsDepth (r : Registry) : Prop :=
  ∀ name f, r.get? name = some f → ∀ (ctx : Context) evaluateFormula k values fault,
    (f.body (ctx.call evaluateFormula f k) values).Fails fault → fault.exceedsDepth = true →
    ∃ text, (evaluateFormula text).Fails fault

theorem Catalog.registry_keepsDepth : registry.KeepsDepth := by
  intro name f hf ctx evaluateFormula k values fault hfails hdepth
  obtain hown | hpassed := isOwn_or_fails hf hfails
  · cases fault with
    | depthExceeded => cases hown
    | _ => cases hdepth
  · exact hpassed

namespace Formula

variable {ctx : Context} {f : Formula} {source text : String} {e : EvaluationError}

/-- All calls of the formula are of functions that are known. -/
def CallsKnown (r : Registry) (f : Formula) : Prop :=
  ∀ k span g args, f.term.HasNode (.call k span g args) → ∃ name, r.get? name = some g

theorem callsKnown_of_compile (h : compile ctx source = .ok f) : f.CallsKnown ctx.functions := by
  obtain ⟨tree, -, hterm, -⟩ := compileWith_eq_ok h
  intro k span g args hnode
  exact (Term.resolvedIn_ofTree hterm _ hnode).1

/-- A nested formula never is too deep itself; if it is, the fault is wrapped. -/
theorem not_exceedsDepth_nestedValue {fault : EvaluationFault}
    (h : (nestedValue ctx.levels ctx text).Fails fault) : fault.exceedsDepth = false := by
  obtain ⟨-, rfl⟩ | ⟨-, error, -, rfl⟩ := fails_nestedValue h <;> rfl

/-- A run does not reach a limit that admits the whole formula. -/
theorem not_exceedsDepth_of_fails {maxDepth : Nat} (hfunctions : ctx.functions.KeepsDepth)
    (hf : f.CallsKnown ctx.functions) (hheight : f.term.height ≤ maxDepth)
    (h : (f.runWithin maxDepth ctx).Fails e) : e.fault.exceedsDepth = false := by
  obtain ⟨e, he, rfl⟩ := Evaluation.fails_mapError.1 h
  obtain ⟨node, d, hnode, hdepth, fault, hfault, rfl⟩ := Term.failsItself_of_fails he
  have hpos := node.height_pos
  show fault.exceedsDepth = false
  cases hfault with
  | tooDeep hdeep => omega
  | body _ hbody =>
      by_contra hexceeds
      rw [Bool.not_eq_false] at hexceeds
      obtain ⟨name, hname⟩ := hf _ _ _ _ hnode
      obtain ⟨text, htext⟩ := hfunctions name _ hname _ _ _ _ _ hbody hexceeds
      rw [not_exceedsDepth_nestedValue htext] at hexceeds
      cases hexceeds
  | _ => rfl

/-- A formula that compiles is no higher than the limit for trees. -/
theorem height_le_of_compile (h : compile ctx source = .ok f) :
    ∃ tree, Tree.parse ctx.options.maxParseDepth source = .ok tree ∧
      f.term.height ≤ tree.height ∧ tree.height ≤ max 1 ctx.options.maxParseDepth := by
  obtain ⟨tree, htree, hterm, -⟩ := compileWith_eq_ok h
  exact ⟨tree, htree, Term.height_le_of_ofTree hterm, Tree.height_le_of_parse htree⟩

/-- A formula runs without reaching the limit in the context for which it is compiled. -/
theorem not_exceedsDepth_of_compile (hfunctions : ctx.functions.KeepsDepth)
    (hlimits : max 1 ctx.options.maxParseDepth ≤ ctx.options.maxDepth)
    (hf : compile ctx source = .ok f) (h : (f.run ctx).Fails e) : e.fault.exceedsDepth = false := by
  obtain ⟨tree, -, hterm, htree⟩ := height_le_of_compile hf
  exact not_exceedsDepth_of_fails hfunctions (callsKnown_of_compile hf)
    (Nat.le_trans hterm (Nat.le_trans htree hlimits)) h

/-- If the limit on the depth of evaluations is at least that on the height of trees, and at
least one, then it is never reached.  The term of a formula is no higher than its tree, the tree
no higher than the limit for trees, and a run goes no deeper than the term is high.  The same
holds for every text that is evaluated so many levels further in, and so for the errors that
stand inside of an error, if functions pass them on. -/
theorem depth_never_exceeded {engine : Engine}
    (hlimits : max 1 engine.options.maxParseDepth ≤ engine.options.maxDepth)
    (hfunctions : engine.functions.KeepsDepth) :
    (∀ now row source f, compile (engine.context now row) source = .ok f →
      (∃ tree, Tree.parse engine.options.maxParseDepth source = .ok tree ∧
        f.term.height ≤ tree.height ∧ tree.height ≤ max 1 engine.options.maxParseDepth) ∧
      ∀ later other e, (f.run (engine.context later other)).Fails e →
        e.fault.exceedsDepth = false ∧
        (engine.functions.PassesOn → ∀ n inner, (Error.failed e).within? n = some inner →
          inner.fault.exceedsDepth = false)) ∧
    ∀ now row n text e,
      (evaluate ((engine.context now row).nestedBy n) text).Fails (.failed e) →
      e.fault.exceedsDepth = false := by
  constructor
  · intro now row source f hf
    obtain ⟨tree, htree, hterm, hle⟩ := height_le_of_compile hf
    have hcalls : f.CallsKnown engine.functions := callsKnown_of_compile hf
    refine ⟨⟨tree, htree, hterm, hle⟩, fun later other e he => ?_⟩
    have htop : e.fault.exceedsDepth = false :=
      @not_exceedsDepth_of_fails (engine.context later other) f e _ hfunctions hcalls
        (Nat.le_trans hterm (Nat.le_trans hle hlimits)) he
    refine ⟨htop, fun hpasses n inner hn => ?_⟩
    cases n with
    | zero =>
        obtain rfl := Option.some.inj hn
        exact htop
    | succ n =>
        have hterm := @passesOn_of_compile (engine.context now row) source f hpasses hf
        obtain ⟨-, g, hg, hrun⟩ :=
          @fails_of_within (engine.context later other) hpasses f hterm _ n e inner he hn
        exact @not_exceedsDepth_of_compile ((engine.context later other).nestedBy (n + 1)) _ _ _
          hfunctions hlimits hg hrun
  · intro now row n text e he
    obtain hcompile | ⟨f, e', hf, hrun, herror⟩ := fails_evaluate he
    · obtain ⟨_, hunreadable⟩ | ⟨_, hillTyped⟩ := compileWith_eq_error hcompile
      · cases hunreadable
      · cases hillTyped
    · cases herror
      exact @not_exceedsDepth_of_compile ((engine.context now row).nestedBy n) _ _ _ hfunctions
        hlimits hf hrun

/-- The defaults are such limits: a formula that evaluates itself without end runs into the
limit on the levels of formulas, and never into that on the depth. -/
theorem depth_never_exceeded_of_defaults :
    let ctx := ({} : Engine).context ⟨0, 0⟩ (Row.ofList [("a", .ofString "eval([a], REAL)")])
    ∃ f e, compile ctx "eval([a], REAL)" = .ok f ∧ f.term.height ≤ 256 ∧ (f.run ctx).Fails e ∧
      ∀ n inner, (Error.failed e).within? n = some inner → inner.fault.exceedsDepth = false := by
  intro ctx
  have hcheck : ((compile ctx "eval([a], REAL)").toOption.any fun f =>
      ((f.run ctx).failure? default).isSome) = true := by
    decide +kernel
  obtain ⟨f, hf, hrun⟩ := (Option.any_eq_true _ _).1 hcheck
  have hcompile := toOption_eq_some_iff.1 hf
  obtain ⟨e, he⟩ := Option.isSome_iff_exists.1 hrun
  have hfails : (f.run ctx).Fails e := Evaluation.fails_of_failure? he
  obtain ⟨⟨tree, -, hterm, hle⟩, hruns⟩ := (@depth_never_exceeded {} (by decide)
    Catalog.registry_keepsDepth).1 _ _ _ f hcompile
  have hinside := (hruns _ _ e hfails).2 Catalog.registry_passesOn
  exact ⟨f, e, hcompile, Nat.le_trans hterm hle, hfails, hinside⟩

end Formula

end RowFormula
