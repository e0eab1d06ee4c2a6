/-
# Operators under names

Some operators are functions as well.  An operator has its own rule for kinds and may be folded
while it is resolved; the function has a signature and a body and is called for every row.  Here the
one is held against the other, above the same operands.  The function that joins texts takes any
number of them, and is held against the sum from left to right: what one more text adds is the same
in both (`joined_concat`).
-/

import RowFormula.Proofs.Catalog
import RowFormula.Proofs.Interchange

namespace RowFormula

/-- Formulas find the function under its name. -/
def Registry.Has (r : Registry) (f : Function) : Prop :=
  ∃ serial, r.get? f.name = some { f with serial := serial }

namespace Registry

theorem Has.register {r : Registry} {f g : Function} (h : r.Has f) (hne : g.name ≠ f.name) :
    (r.register g).Has f := by
  obtain ⟨serial, h⟩ := h
  exact ⟨serial, by rw [get?_register, if_neg hne, h]⟩

theorem has_register (r : Registry) (f : Function) : (r.register f).Has f :=
  ⟨r.next, by rw [get?_register, if_pos rfl]⟩

theorem Has.foldl_register {r : Registry} {f : Function} {fs : List Function} (h : r.Has f)
    (hne : ∀ g ∈ fs, g.name ≠ f.name) : (fs.foldl Registry.register r).Has f := by
  induction fs generalizing r with
  | nil => exact h
  | cons g fs ih =>
      obtain ⟨hg, hfs⟩ := List.forall_mem_cons.1 hne
      exact ih (h.register hg) hfs

/-- All functions are found that are registered under different names. -/
theorem has_foldl_register {fs : List Function} (hnames : (fs.map Function.name).Nodup)
    (r : Registry) : ∀ f ∈ fs, (fs.foldl Registry.register r).Has f := by
  induction fs generalizing r with
  | nil => exact fun _ hf => absurd hf List.not_mem_nil
  | cons g fs ih =>
      obtain ⟨hg, hnames⟩ := List.nodup_cons.1 hnames
      intro f hf
      rw [List.foldl_cons]
      obtain rfl | hf := List.mem_cons.1 hf
      · refine Has.foldl_register (has_register r f) fun g hmem hname => ?_
        exact hg (hname ▸ List.mem_map_of_mem hmem)
      · exact ih hnames _ f hf

end Registry

namespace Catalog

theorem registry_has : ∀ f ∈ functions, registry.Has f :=
  Registry.has_foldl_register (by decide +kernel) Registry.empty

theorem registry_has_operators : ∀ f ∈ logical ++ arithmetic, registry.Has f := by
  intro f hf
  refine registry_has f ?_
  simp only [functions, List.mem_append] at hf ⊢
  tauto

theorem registry_has_concatenation : registry.Has concatenation := by
  have hmem : concatenation ∈ stringTransformation := List.mem_cons_self
  refine registry_has _ ?_
  simp only [functions, List.mem_append]
  tauto

end Catalog

/-! ### Kinds and values -/

namespace KindSet

theorem accepts_truthy (k : Kind) : truthy.accepts k = k.isTruthy := by
  cases k <;> rfl

theorem accepts_numeric (k : Kind) : numeric.accepts k = k.isNumeric := by
  cases k <;> rfl

end KindSet

namespace Value

theorem eq_string_of_kind {v : Value} (h : v.kind = .string) : v = string v.string? := by
  cases v with
  | string s => rfl
  | _ => cases h

end Value

namespace Catalog

/-- A missing text contributes nothing where there is another one. -/
theorem joined_missing_cons (v : Value) (vs : List Value) :
    joined (.string none :: v :: vs) = joined (v :: vs) := rfl

theorem joined_text_cons (s : String) (vs : List Value) :
    joined (.ofString s :: vs) = .ofString (s ++ String.join (vs.filterMap Value.string?)) := by
  rw [joined, if_neg (by simp [Value.ofString, Value.isMissing]),
    List.filterMap_cons_some (rfl : (Value.ofString s).string? = some s), String.join_cons]

/-- Two texts that are joined first count as one. -/
theorem joined_concat {v w : Value} (hv : v.kind = .string) (hw : w.kind = .string)
    (vs : List Value) : joined (Value.concat v w :: vs) = joined (v :: w :: vs) := by
  rw [Value.eq_string_of_kind hv, Value.eq_string_of_kind hw]
  rcases v.string? with _ | s <;> rcases w.string? with _ | s'
  · exact (joined_missing_cons _ _).symm
  · show joined (.ofString ("" ++ s') :: vs) = joined (.ofString s' :: vs)
    rw [String.empty_append]
  · show joined (.ofString (s ++ "") :: vs) = joined (.ofString s :: .string none :: vs)
    rw [String.append_empty, joined_text_cons, joined_text_cons]
    rfl
  · show joined (.ofString (s ++ s') :: vs) = joined (.ofString s :: .ofString s' :: vs)
    rw [joined_text_cons, joined_text_cons, String.append_assoc,
      List.filterMap_cons_some (rfl : (Value.ofString s').string? = some s'), String.join_cons]

theorem joined_singleton {v : Value} (hv : v.kind = .string) : joined [v] = v := by
  rw [Value.eq_string_of_kind hv]
  rcases v.string? with _ | s
  · rfl
  · exact (joined_text_cons s []).trans (congrArg Value.ofString (String.append_empty))

/-- Texts are joined as they are concatenated one after the other, whichever of them are
missing. -/
theorem joined_cons {v : Value} {vs : List Value} (hv : v.kind = .string)
    (hvs : ∀ w ∈ vs, w.kind = .string) : joined (v :: vs) = vs.foldl Value.concat v := by
  induction vs generalizing v with
  | nil => exact joined_singleton hv
  | cons w vs ih =>
      obtain ⟨hw, hvs⟩ := List.forall_mem_cons.1 hvs
      rw [List.foldl_cons, ← ih (Value.kind_concat v w) hvs, joined_concat hv hw]

/-- Negation under its name. -/
def negation : Function := logical[2]

/-- The name of a logical operator as a function. -/
def logicalName : LogicalOp → String
  | .and => "and"
  | .or => "or"

/-- The name of an operator of arithmetic as a function, if it is one. -/
def arithmeticName? : ArithmeticOp → Option String
  | .pow => some "pow"
  | .mod => some "mod"
  | _ => none

theorem exists_mem_logical (op : LogicalOp) :
    ∃ description, logicalFunction (logicalName op) description op ∈ logical := by
  cases op with
  | and => exact ⟨_, .head _⟩
  | or => exact ⟨_, .tail _ (.head _)⟩

theorem negation_mem_logical : negation ∈ logical :=
  List.getElem_mem _

theorem exists_mem_arithmetic {op : ArithmeticOp} {name : String}
    (h : arithmeticName? op = some name) :
    (op = .pow ∨ op = .mod) ∧ name ≠ Term.conditionalName ∧
      ∃ description, operatorFunction name description op ∈ arithmetic := by
  cases op with
  | pow =>
      obtain rfl := Option.some.inj h
      exact ⟨.inl rfl, by decide, _, .head _⟩
  | mod =>
      obtain rfl := Option.some.inj h
      exact ⟨.inr rfl, by decide, _, .tail _ (.head _)⟩
  | _ => cases h

end Catalog

/-! ### Trees -/

namespace Tree

open Catalog (logicalName arithmeticName?)

/-- The same operator on the same operands, once under its name and once as an operator. -/
inductive Synonymous : Tree → Tree → Prop
  | logical {op : LogicalOp} {span span' : Span} {l r : Tree} :
      Synonymous (.call (logicalName op) span [l, r]) (.logical op span' l r)
  | not {span span' : Span} {x : Tree} : Synonymous (.call "not" span [x]) (.unary .not span' x)
  | arithmetic {op : ArithmeticOp} {name : String} {span span' : Span} {l r : Tree}
      (hname : arithmeticName? op = some name) :
      Synonymous (.call name span [l, r]) (.arithmetic op span' l r)

/-- The sum of trees, from left to right. -/
def sum (t : Tree) (ts : List Tree) : Tree :=
  ts.foldl (.arithmetic .add ⟨0, 0⟩) t

end Tree

namespace Term

section Resolving

variable {formulaKind : String → Except KindFault Kind} {ctx : Context} {source : String}
variable {span span' : Span} {f : Function} {args : List Term} {k : Kind}

theorem misplaced?_single {signature : Signature} {x : Term} :
    misplaced? signature 0 [x] = none ↔ (signature.acceptedAt 0).accepts x.kind = true := by
  cases hx : (signature.acceptedAt 0).accepts x.kind <;> simp [misplaced?, hx]

theorem misplaced?_pair {signature : Signature} {x y : Term} :
    misplaced? signature 0 [x, y] = none ↔
      (signature.acceptedAt 0).accepts x.kind = true ∧
        (signature.acceptedAt 1).accepts y.kind = true := by
  cases hx : (signature.acceptedAt 0).accepts x.kind <;>
    cases hy : (signature.acceptedAt 1).accepts y.kind <;> simp [misplaced?, hx, hy]

theorem ofCall_of_accepts {name : String} (h : misplaced? f.signature 0 args = none)
    (hk : f.result.resolve (ctx.kindRequest formulaKind
      (args.map fun arg => ⟨arg.kind, arg.constant?⟩)) = .ok k) :
    ofCall formulaKind ctx source name span f args = .ok (call k span f args) := by
  rw [ofCall, callKind, h]
  simp only [hk]
  rfl

/-- A call that is accepted, and an operator that has its kind and its value. -/
theorem paired_of_accepts {name : String} {node : Term} (h : misplaced? f.signature 0 args = none)
    (hk : f.result.resolve (ctx.kindRequest formulaKind
      (args.map fun arg => ⟨arg.kind, arg.constant?⟩)) = .ok k)
    (hvalue : (call k span f args).SameValue node) :
    Paired (ofCall formulaKind ctx source name span f args) (pure node.fold) := by
  rw [ofCall_of_accepts h hk]
  exact .resolved hvalue.fold

/-- A call and an operator that are both refused. -/
theorem paired_of_misplaced {name : String} (h : misplaced? f.signature 0 args ≠ none)
    (fault : TypeFault) {next : Term → Analysis Term} :
    Paired (ofCall formulaKind ctx source name span f args)
      (fail source fault span' >>= next) := by
  obtain ⟨⟨position, arg⟩, h⟩ := Option.ne_none_iff_exists'.1 h
  rw [ofCall, callKind, h]
  exact .refused _ _

/-- A call of a function that formulas find is that function above its arguments. -/
theorem ofTree_call_of_has {trees : List Tree} (hf : ctx.functions.Has f)
    (hname : f.name ≠ conditionalName) (harity : f.signature.arity.accepts trees.length = true) :
    ∃ serial, ofTree formulaKind ctx source (.call f.name span trees) = (do
      let ts ← ofTrees formulaKind ctx source trees
      ofCall formulaKind ctx source f.name span { f with serial := serial } ts) := by
  obtain ⟨serial, hget⟩ := hf
  refine ⟨serial, ?_⟩
  rw [ofTree_call hname, functionFor, hget]
  simp only [harity, if_true]
  rfl

end Resolving

section Evaluating

variable {evaluateFormula : String → Evaluation EvaluationFault Value} {ctx : Context}
variable {k : Kind} {span : Span} {f : Function} {values : List Value} {v : Value}

theorem apply_of_body (hbody : f.body (ctx.call evaluateFormula f k) values = pure v)
    (hk : v.kind = k) : apply evaluateFormula ctx k span f values = pure v := by
  subst hk
  rw [apply, hbody]
  show conform v.kind span v = pure v
  rw [conform, Value.coerce?_self]
  rfl

/-- A call whose body cannot fail is an operation on the value of its argument. -/
theorem unlimited_call_single {x : Term} {op : Value → Value}
    (hbody : ∀ v, f.body (ctx.call evaluateFormula f k) [v] = pure (op v))
    (hk : ∀ v, (op v).kind = k) :
    (call k span f [x]).unlimited evaluateFormula ctx = (do
      let v ← x.unlimited evaluateFormula ctx
      pure (op v)) := by
  have happly : ∀ v, apply evaluateFormula ctx k span f [v] = pure (op v) :=
    fun v => apply_of_body (hbody v) (hk v)
  simp only [unlimited, unlimitedAll, bind_assoc, pure_bind, happly]

theorem unlimited_call_pair {x y : Term} {op : Value → Value → Value}
    (hbody : ∀ v w, f.body (ctx.call evaluateFormula f k) [v, w] = pure (op v w))
    (hk : ∀ v w, (op v w).kind = k) :
    (call k span f [x, y]).unlimited evaluateFormula ctx = (do
      let v ← x.unlimited evaluateFormula ctx
      let w ← y.unlimited evaluateFormula ctx
      pure (op v w)) := by
  have happly : ∀ v w, apply evaluateFormula ctx k span f [v, w] = pure (op v w) :=
    fun v w => apply_of_body (hbody v w) (hk v w)
  simp only [unlimited, unlimitedAll, bind_assoc, pure_bind, happly]

end Evaluating

/-! ### One operator -/

section Operators

open Catalog (logicalFunction operatorFunction)

variable {formulaKind : String → Except KindFault Kind} {ctx : Context} {source name : String}
variable {span span' : Span} {description : String} {serial : Nat} {x y : Term}

theorem paired_logical (op : LogicalOp) :
    Paired (ofCall formulaKind ctx source name span
        { logicalFunction name description op with serial := serial } [x, y])
      (ofLogical source op span' x y >>= fun node => pure node.fold) := by
  have hmisplaced : misplaced? (logicalFunction name description op).signature 0 [x, y] = none ↔
      x.kind.isTruthy = true ∧ y.kind.isTruthy = true := by
    rw [← KindSet.accepts_truthy, ← KindSet.accepts_truthy]
    exact misplaced?_pair
  rw [← Bool.and_eq_true] at hmisplaced
  unfold ofLogical
  split
  · rename_i htruthy
    refine paired_of_accepts (hmisplaced.2 htruthy) rfl ⟨rfl, fun evaluateFormula ctx => ?_⟩
    rw [unlimited_call_pair (fun _ _ => rfl) (Value.kind_logical op)]
    rfl
  · rename_i htruthy
    refine paired_of_misplaced ?_ _
    exact mt hmisplaced.1 htruthy

theorem paired_not :
    Paired (ofCall formulaKind ctx source name span
        { Catalog.negation with serial := serial } [x])
      (ofUnary source .not span' x >>= fun node => pure node.fold) := by
  have hmisplaced : misplaced? Catalog.negation.signature 0 [x] = none ↔
      x.kind.isTruthy = true := by
    rw [← KindSet.accepts_truthy]
    exact misplaced?_single
  unfold ofUnary unaryKind?
  by_cases htruthy : x.kind.isTruthy = true
  · rw [if_pos htruthy]
    refine paired_of_accepts (hmisplaced.2 htruthy) rfl ⟨rfl, fun evaluateFormula ctx => ?_⟩
    rw [unlimited_call_single (fun _ => rfl) Catalog.kind_logicalNot]
    rfl
  · rw [if_neg htruthy]
    refine paired_of_misplaced ?_ _
    exact mt hmisplaced.1 htruthy

theorem paired_arithmetic {op : ArithmeticOp} (hop : op = .pow ∨ op = .mod) :
    Paired (ofCall formulaKind ctx source name span
        { operatorFunction name description op with serial := serial } [x, y])
      (ofArithmetic source op span' x y >>= fun node => pure node.fold) := by
  have hmisplaced : misplaced? (operatorFunction name description op).signature 0 [x, y] = none ↔
      x.kind.isNumeric = true ∧ y.kind.isNumeric = true := by
    rw [← KindSet.accepts_numeric, ← KindSet.accepts_numeric]
    exact misplaced?_pair
  rw [← Bool.and_eq_true] at hmisplaced
  have hkind : arithmeticKind? op x.kind y.kind =
      if x.kind.isNumeric && y.kind.isNumeric then some (x.kind.arithmeticResult y.kind)
      else none := by
    obtain rfl | rfl := hop <;> rfl
  unfold ofArithmetic
  rw [hkind]
  by_cases hnumeric : (x.kind.isNumeric && y.kind.isNumeric) = true
  · rw [if_pos hnumeric]
    have hresult : (x.kind.arithmeticResult y.kind).isNumeric = true := Kind.isNumeric_promote _
    have hne : x.kind.arithmeticResult y.kind ≠ .string := by
      intro h
      rw [h] at hresult
      cases hresult
    refine paired_of_accepts (k := x.kind.arithmeticResult y.kind) (hmisplaced.2 hnumeric) rfl
      ⟨rfl, fun evaluateFormula ctx => ?_⟩
    rw [unlimited_call_pair (fun _ _ => rfl) (fun _ _ => Value.kind_number hresult _)]
    simp only [unlimited, Value.arithmetic, if_neg hne]
    rfl
  · rw [if_neg hnumeric]
    refine paired_of_misplaced ?_ _
    exact mt hmisplaced.1 hnumeric

/-- A function of two arguments and an operator above the same operands. -/
theorem paired_call_pair {f : Function} {l r : Tree} {node : Term → Term → Analysis Term}
    (hf : ctx.functions.Has f) (hname : f.name ≠ conditionalName)
    (harity : f.signature.arity.accepts 2 = true)
    (h : ∀ serial x y, Paired
      (ofCall formulaKind ctx source f.name span { f with serial := serial } [x, y]) (node x y)) :
    Paired (ofTree formulaKind ctx source (.call f.name span [l, r])) (do
      let x ← ofTree formulaKind ctx source l
      let y ← ofTree formulaKind ctx source r
      node x y) := by
  obtain ⟨serial, hcall⟩ := @ofTree_call_of_has formulaKind ctx source span f [l, r] hf hname harity
  rw [hcall]
  simp only [ofTrees, bind_assoc, pure_bind]
  exact .bind fun x _ => .bind fun y _ => h serial x y

/-- A named operator and the operator itself. -/
theorem paired_of_synonymous {t u : Tree} (h : t.Synonymous u)
    (hfunctions : ∀ f ∈ Catalog.logical ++ Catalog.arithmetic, ctx.functions.Has f) :
    Paired (ofTree formulaKind ctx source t) (ofTree formulaKind ctx source u) := by
  cases h with
  | @logical op span span' l r =>
      obtain ⟨description, hmem⟩ := Catalog.exists_mem_logical op
      have hname : Catalog.logicalName op ≠ conditionalName := by
        cases op <;> decide
      exact paired_call_pair (hfunctions _ (List.mem_append_left _ hmem)) hname rfl
        fun _ _ _ => paired_logical op
  | @not span span' x =>
      obtain ⟨serial, hcall⟩ := @ofTree_call_of_has formulaKind ctx source span Catalog.negation [x]
        (hfunctions _ (List.mem_append_left _ Catalog.negation_mem_logical)) (by decide) rfl
      refine hcall ▸ ?_
      simp only [ofTrees, bind_assoc, pure_bind]
      exact .bind fun x _ => paired_not
  | arithmetic hname =>
      obtain ⟨hop, hconditional, description, hmem⟩ := Catalog.exists_mem_arithmetic hname
      exact paired_call_pair (hfunctions _ (List.mem_append_right _ hmem)) hconditional rfl
        fun _ _ _ => paired_arithmetic hop

end Operators

/-! ### Sums of texts -/

/-- The sum of terms, from left to right and folded at every step, as a text. -/
def sum (t : Term) (ts : List Term) : Term :=
  ts.foldl (fun x y => (arithmetic .string ⟨0, 0⟩ .add x y).fold) t

theorem kind_sum {t : Term} (ht : t.kind = .string) (ts : List Term) :
    (sum t ts).kind = .string := by
  induction ts generalizing t with
  | nil => exact ht
  | cons u ts ih => exact ih (kind_fold _)

section Sums

variable {formulaKind : String → Except KindFault Kind} {ctx : Context} {source : String}

/-- A sum whose first summand is a text is resolved to the sum of what its summands are resolved
to. -/
theorem ofTree_sum {tree : Tree} {trees : List Tree} {t : Term} {ts : List Term}
    (ht : ofTree formulaKind ctx source tree = .ok t) (hkind : t.kind = .string)
    (hts : ofTrees formulaKind ctx source trees = .ok ts) :
    ofTree formulaKind ctx source (Tree.sum tree trees) = .ok (sum t ts) := by
  induction trees generalizing tree t ts with
  | nil =>
      cases hts
      exact ht
  | cons next trees ih =>
      rw [ofTrees] at hts
      obtain ⟨u, hu, hts⟩ := bind_eq_ok_iff.1 hts
      obtain ⟨us, hus, hts⟩ := bind_eq_ok_iff.1 hts
      cases hts
      have hstep : ofTree formulaKind ctx source (.arithmetic .add ⟨0, 0⟩ tree next) =
          .ok (arithmetic .string ⟨0, 0⟩ .add t u).fold := by
        rw [ofTree, ht, hu]
        show (ofArithmetic source .add ⟨0, 0⟩ t u >>= _) = _
        rw [ofArithmetic, arithmeticKind?, if_pos ⟨rfl, .inl hkind⟩]
        rfl
      have hrest := ih hstep (kind_fold _) hus
      exact hrest

variable {evaluateFormula : String → Evaluation EvaluationFault Value}

theorem unlimited_sum (t : Term) (ts : List Term) :
    (sum t ts).unlimited evaluateFormula ctx = (do
      let v ← t.unlimited evaluateFormula ctx
      let vs ← unlimitedAll evaluateFormula ctx ts
      pure (vs.foldl Value.concat v)) := by
  induction ts generalizing t with
  | nil => simp only [sum, List.foldl_nil, unlimitedAll, pure_bind, bind_pure]
  | cons u ts ih =>
      have hstep : (arithmetic .string ⟨0, 0⟩ .add t u).fold.unlimited evaluateFormula ctx = (do
          let v ← t.unlimited evaluateFormula ctx
          let w ← u.unlimited evaluateFormula ctx
          pure (Value.concat v w)) := by
        rw [unlimited_fold, unlimited]
        rfl
      rw [sum, List.foldl_cons]
      refine (ih _).trans ?_
      simp only [hstep, unlimitedAll, bind_assoc, pure_bind, List.foldl_cons]

/-- Values have the kind of the term also where there is no limit. -/
theorem WellKinded.kind_of_unlimited {t : Term} (ht : t.WellKinded) {v : Value}
    (h : (t.unlimited evaluateFormula ctx).Returns v) : v.kind = t.kind := by
  rw [← @evaluate_eq_unlimited _ _ t.height 0 t (by omega)] at h
  exact ht.kind_of_returns h

theorem kinds_of_unlimitedAll {ts : List Term} (hts : ∀ t ∈ ts, t.WellKinded) {k : Kind}
    (hk : ∀ t ∈ ts, t.kind = k) {vs : List Value}
    (h : (unlimitedAll evaluateFormula ctx ts).Returns vs) : ∀ v ∈ vs, v.kind = k := by
  induction ts generalizing vs with
  | nil =>
      obtain rfl := Evaluation.returns_pure.1 h
      exact nofun
  | cons t ts ih =>
      rw [unlimitedAll] at h
      obtain ⟨v, hv, h⟩ := h.of_bind
      obtain ⟨ws, hws, h⟩ := h.of_bind
      obtain rfl := Evaluation.returns_pure.1 h
      obtain ⟨ht, hts⟩ := List.forall_mem_cons.1 hts
      obtain ⟨hkt, hk⟩ := List.forall_mem_cons.1 hk
      exact List.forall_mem_cons.2 ⟨(ht.kind_of_unlimited hv).trans hkt, ih hts hk hws⟩

/-- The function that joins texts and the sum of the texts. -/
theorem sameValue_concat {span : Span} {serial : Nat} {t : Term} {ts : List Term}
    (hts : ∀ u ∈ t :: ts, u.WellKinded) (hkinds : ∀ u ∈ t :: ts, u.kind = .string) :
    (call .string span { Catalog.concatenation with serial := serial } (t :: ts)).SameValue
      (sum t ts) where
  kind := (kind_sum (hkinds t List.mem_cons_self) ts).symm
  value evaluateFormula ctx := by
    have hcall : (call .string span { Catalog.concatenation with serial := serial }
        (t :: ts)).unlimited evaluateFormula ctx =
          (unlimitedAll evaluateFormula ctx (t :: ts) >>= fun vs => pure (Catalog.joined vs)) := by
      rw [unlimited]
      exact congrArg _ (funext fun vs => apply_of_body rfl (Catalog.kind_joined vs))
    rw [hcall, unlimited_sum, unlimitedAll]
    simp only [bind_assoc, pure_bind]
    refine congrArg _ (Evaluation.bind_congr_of_returns fun v hv => ?_)
    refine Evaluation.bind_congr_of_returns fun vs hvs => ?_
    obtain ⟨ht, hts⟩ := List.forall_mem_cons.1 hts
    obtain ⟨hkind, hkinds⟩ := List.forall_mem_cons.1 hkinds
    rw [Catalog.joined_cons ((ht.kind_of_unlimited hv).trans hkind)
      (kinds_of_unlimitedAll hts hkinds hvs)]

theorem misplaced?_concatenation {ts : List Term} (hkinds : ∀ t ∈ ts, t.kind = .string)
    (position : Nat) : misplaced? Catalog.concatenation.signature position ts = none := by
  induction ts generalizing position with
  | nil => rfl
  | cons t ts ih =>
      obtain ⟨ht, hts⟩ := List.forall_mem_cons.1 hkinds
      have haccepts :
          (Catalog.concatenation.signature.acceptedAt position).accepts t.kind = true := by
        rw [ht]
        rfl
      rw [misplaced?, if_pos haccepts, ih hts]

theorem exists_ofTrees {trees : List Tree}
    (h : ∀ tree ∈ trees, ∃ t, ofTree formulaKind ctx source tree = .ok t ∧ t.kind = .string) :
    ∃ ts, ofTrees formulaKind ctx source trees = .ok ts ∧ ∀ t ∈ ts, t.kind = .string := by
  induction trees with
  | nil => exact ⟨[], rfl, nofun⟩
  | cons tree trees ih =>
      obtain ⟨⟨t, ht, hkind⟩, hrest⟩ := List.forall_mem_cons.1 h
      obtain ⟨ts, hts, hkinds⟩ := ih hrest
      refine ⟨t :: ts, ?_, List.forall_mem_cons.2 ⟨hkind, hkinds⟩⟩
      rw [ofTrees, ht, hts]
      rfl

/-- Texts are joined by the function and by the sum.  Both are accepted. -/
theorem ofTree_concat {span : Span} {tree : Tree} {trees : List Tree}
    (hf : ctx.functions.Has Catalog.concatenation)
    (htrees : ∀ x ∈ tree :: trees, ∃ t, ofTree formulaKind ctx source x = .ok t ∧
      t.kind = .string) :
    ∃ t u, ofTree formulaKind ctx source (.call "concat" span (tree :: trees)) = .ok t ∧
      ofTree formulaKind ctx source (Tree.sum tree trees) = .ok u ∧ t.kind = .string ∧
      t.SameValue u := by
  obtain ⟨⟨t, ht, hkind⟩, hrest⟩ := List.forall_mem_cons.1 htrees
  obtain ⟨ts, hts, hkinds⟩ := exists_ofTrees hrest
  have hall : ofTrees formulaKind ctx source (tree :: trees) = .ok (t :: ts) := by
    rw [ofTrees, ht, hts]
    rfl
  have hwell : ∀ x ∈ t :: ts, x.WellKinded := by
    intro x hx
    obtain ⟨_, -, hx⟩ := (ofTrees_eq_ok hall).2 x hx
    exact wellKinded_ofTree hx
  have hkinds : ∀ x ∈ t :: ts, x.kind = .string := List.forall_mem_cons.2 ⟨hkind, hkinds⟩
  obtain ⟨serial, hcall⟩ := @ofTree_call_of_has formulaKind ctx source span Catalog.concatenation
    (tree :: trees) hf (by decide) rfl
  rw [hall] at hcall
  exact ⟨_, _, hcall.trans (ofCall_of_accepts (misplaced?_concatenation hkinds 0) rfl),
    ofTree_sum ht hkind hts, rfl, sameValue_concat hwell hkinds⟩

end Sums

end Term

namespace Formula

variable {ctx : Context} {source other : String} {t u : Tree}

/-- Operators and the functions of their names are interchangeable.  Apart from spans, one text is
read as a call of `and`, `or`, `not`, `pow` or `mod`, and the other as the operator on the same
operands: then both are accepted or both are refused, they have the same kind, and they run to the
same value or fail with the same fault.  The same holds for a call of `concat` on any number of
texts, but at least one, and for their sum, which are both accepted. -/
theorem named_operators_agree
    (hfunctions : ∀ f ∈ Catalog.logical ++ Catalog.arithmetic, ctx.functions.Has f)
    (hconcat : ctx.functions.Has Catalog.concatenation)
    (ht : Tree.parse ctx.options.maxParseDepth source = .ok t)
    (hu : Tree.parse ctx.options.maxParseDepth other = .ok u) :
    (t.withoutSpans.Synonymous u.withoutSpans →
      Interchangeable Admitted (compile ctx source) (compile ctx other)) ∧
    ∀ tree trees, t.withoutSpans = .call "concat" ⟨0, 0⟩ (tree :: trees) →
      u.withoutSpans = Tree.sum tree trees →
      (∀ x ∈ tree :: trees, ∃ f, resolve ctx "" x = .ok f ∧ f.kind = .string) →
      (∃ f, compile ctx source = .ok f ∧ f.kind = .string) ∧
        Interchangeable Admitted (compile ctx source) (compile ctx other) := by
  refine ⟨fun h => ?operator, fun tree trees htree hsum hstrings => ?concat⟩
  case operator =>
    exact interchangeable_of_paired ht hu (Term.paired_of_synonymous h hfunctions)
  case concat =>
    have htrees : ∀ x ∈ tree :: trees, ∃ x', Term.ofTree (nestedKind ctx.levels ctx) ctx "" x =
        .ok x' ∧ x'.kind = .string := by
      intro x hx
      obtain ⟨f, hf, hkind⟩ := hstrings x hx
      exact ⟨f.term, resolve_eq_ok hf, hkind⟩
    obtain ⟨t', u', ht', hu', hkind, hsame⟩ := Term.ofTree_concat hconcat htrees
    rw [← htree] at ht'
    rw [← hsum] at hu'
    obtain ⟨f, hf, hvalue⟩ := exists_compile_of_ofTree ht ht'
    refine ⟨⟨f, hf, hvalue.kind.trans hkind⟩, interchangeable_of_paired ht hu ?_⟩
    rw [ht', hu']
    exact .resolved hsame

/-- A conjunction of a number and a truth value, and texts of which one is missing. -/
theorem named_operators_agree_of_texts :
    let ctx := ({} : Engine).context ⟨0, 0⟩ (Row.ofList [("x", .integer 2), ("b", .ofBool true),
      ("s", .ofString "a"), ("t", .missing .string)])
    Interchangeable Admitted (compile ctx "and([x], [b])") (compile ctx "[x] && [b]") ∧
      (∃ f, compile ctx "concat([s], [t])" = .ok f ∧ f.kind = .string) ∧
      Interchangeable Admitted (compile ctx "concat([s], [t])") (compile ctx "[s] + [t]") := by
  intro ctx
  have hread : ∀ source (tree : Tree), tree.HasNumerals →
      ((Tree.parse ctx.options.maxParseDepth source).toOption.any (·.sameShape tree)) = true →
      ∃ t, Tree.parse ctx.options.maxParseDepth source = .ok t ∧
        t.withoutSpans = tree.withoutSpans := by
    intro source tree htree hcheck
    obtain ⟨t, ht, hshape⟩ := (Option.any_eq_true _ _).1 hcheck
    have ht := toOption_eq_some_iff.1 ht
    exact ⟨t, ht, Tree.withoutSpans_eq_of_sameShape (Tree.hasNumerals_of_parse ht) htree hshape⟩
  let leaf (name : String) : Tree := .attributeRef name ⟨0, 0⟩
  have hleaf : ∀ name, (leaf name).HasNumerals := fun name =>
    Tree.hasNumerals_iff.2 ⟨trivial, fun _ h => absurd h List.not_mem_nil⟩
  have hleaves : ∀ x y, ∀ part ∈ [leaf x, leaf y], part.HasNumerals := fun x y =>
    List.forall_mem_cons.2 ⟨hleaf x, List.forall_mem_singleton.2 (hleaf y)⟩
  obtain ⟨t₁, ht₁, hsame₁⟩ := hread "and([x], [b])" (.call "and" ⟨0, 0⟩ [leaf "x", leaf "b"])
    (Tree.hasNumerals_iff.2 ⟨trivial, hleaves _ _⟩) (by decide +kernel)
  obtain ⟨u₁, hu₁, hsame₁'⟩ := hread "[x] && [b]" (.logical .and ⟨0, 0⟩ (leaf "x") (leaf "b"))
    (Tree.hasNumerals_iff.2 ⟨trivial, hleaves _ _⟩) (by decide +kernel)
  obtain ⟨t₂, ht₂, hsame₂⟩ := hread "concat([s], [t])"
    (.call "concat" ⟨0, 0⟩ [leaf "s", leaf "t"])
    (Tree.hasNumerals_iff.2 ⟨trivial, hleaves _ _⟩) (by decide +kernel)
  obtain ⟨u₂, hu₂, hsame₂'⟩ := hread "[s] + [t]" (Tree.sum (leaf "s") [leaf "t"])
    (Tree.hasNumerals_iff.2 ⟨trivial, hleaves _ _⟩) (by decide +kernel)
  have hstring : ∀ name, ctx.row.kind? name = some .string →
      ∃ f, resolve ctx "" (leaf name) = .ok f ∧ f.kind = .string := by
    intro name h
    refine ⟨⟨"", .attributeRef .string ⟨0, 0⟩ name⟩, ?_, rfl⟩
    rw [resolve, Term.ofTree, Term.ofAttribute, h]
    rfl
  have hstrings : ∀ x ∈ [leaf "s", leaf "t"], ∃ f, resolve ctx "" x = .ok f ∧ f.kind = .string :=
    List.forall_mem_cons.2 ⟨hstring _ rfl, List.forall_mem_singleton.2 (hstring _ rfl)⟩
  have hfunctions := Catalog.registry_has_operators
  have hconcat := Catalog.registry_has_concatenation
  refine ⟨(named_operators_agree hfunctions hconcat ht₁ hu₁).1 ?_,
    (named_operators_agree hfunctions hconcat ht₂ hu₂).2 (leaf "s") [leaf "t"] hsame₂ hsame₂'
      hstrings⟩
  rw [hsame₁, hsame₁']
  exact @Tree.Synonymous.logical .and _ _ (leaf "x") (leaf "b")

end Formula

end RowFormula
