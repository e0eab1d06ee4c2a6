/-
# The tree of a formula

What a chain means is a relation here: the operands of a chain are read, each by itself, and
the operators between them are grouped by the layers of the grammar.  `parse_reads` says that
reading a text finds a tree in this relation, and that there is no other.
-/

import RowFormula.Proofs.Evaluation
import RowFormula.Proofs.Layers
import RowFormula.Proofs.Spelling
import RowFormula.Tree.Parse

namespace RowFormula.Tree

open Grammar

/-- An operator in front of a tree. -/
def signedTree (s : Sign) (x : Tree) : Tree := unary s.op (Span.combine s.span x.span) x

/-- An operator between two trees. -/
def joinedTree (op : InfixOp) (x y : Tree) : Tree :=
  infixNode op (Span.combine x.span y.span) x y

section Reads

variable (source : String)

mutual

/-- A chain reads as the tree into which the layers of the grammar group its operands. -/
inductive ReadsChain : Chain → Tree → Prop
  | intro {c : Chain} {t : Skeleton Tree} :
      ReadsOperands c t.sequence → Layered .disjunction t →
      ReadsChain c (t.fold signedTree joinedTree)

/-- The trees of the operands, with all operators where they stand in the chain. -/
inductive ReadsOperands : Chain → Sequence Tree → Prop
  | single {signs : List Sign} {p : Primary} {x : Tree} :
      ReadsPrimary p x → ReadsOperands (.single (.mk signs p)) ⟨⟨signs, x⟩, []⟩
  | link {signs : List Sign} {p : Primary} {op : InfixOp} {span : Span} {rest : Chain} {x : Tree}
      {s : Sequence Tree} :
      ReadsPrimary p x → ReadsOperands rest s →
      ReadsOperands (.link (.mk signs p) op span rest) ⟨⟨signs, x⟩, (op, s.first) :: s.links⟩

inductive ReadsPrimary : Primary → Tree → Prop
  | group {inner : Chain} {span : Span} {x : Tree} :
      ReadsChain inner x → ReadsPrimary (.group inner span) (x.withSpan span)
  | call {name : List Char} {args : List Chain} {span : Span} {xs : List Tree} :
      ReadsAll args xs → ReadsPrimary (.call name args span) (.call (String.ofList name) span xs)
  | leaf {leaf : Leaf} {span : Span} {x : Tree} :
      ofLeaf source span leaf = .ok x → ReadsPrimary (.leaf leaf span) x

inductive ReadsAll : List Chain → List Tree → Prop
  | nil : ReadsAll [] []
  | cons {c : Chain} {cs : List Chain} {x : Tree} {xs : List Tree} :
      ReadsChain c x → ReadsAll cs xs → ReadsAll (c :: cs) (x :: xs)

end

end Reads

/-! ### A chain reads as one tree -/

section Unique

variable {source : String}

theorem ReadsChain.eq_of_operands {c : Chain} {x y : Tree} (hx : ReadsChain source c x)
    (hy : ReadsChain source c y)
    (hoperands : ∀ {s s'}, ReadsOperands source c s → ReadsOperands source c s' → s = s') :
    x = y := by
  cases hx with
  | intro hs hlayered =>
      cases hy with
      | intro hs' hlayered' =>
          rw [hlayered.eq_of_sequence_eq hlayered' (hoperands hs hs')]

mutual

theorem ReadsOperands.unique : ∀ (c : Chain) {s s' : Sequence Tree}, ReadsOperands source c s →
    ReadsOperands source c s' → s = s'
  | .single (.mk signs p), s, s', h, h' => by
      cases h with
      | single hx =>
          cases h' with
          | single hy => rw [ReadsPrimary.unique p hx hy]
  | .link (.mk signs p) op span rest, s, s', h, h' => by
      cases h with
      | link hx hrest =>
          cases h' with
          | link hy hrest' =>
              rw [ReadsPrimary.unique p hx hy, ReadsOperands.unique rest hrest hrest']
  termination_by structural c => c

theorem ReadsPrimary.unique : ∀ (p : Primary) {x y : Tree}, ReadsPrimary source p x →
    ReadsPrimary source p y → x = y
  | .group inner span, x, y, h, h' => by
      cases h with
      | group hx =>
          cases h' with
          | group hy => rw [hx.eq_of_operands hy (ReadsOperands.unique inner)]
  | .call name args span, x, y, h, h' => by
      cases h with
      | call hxs =>
          cases h' with
          | call hys => rw [ReadsAll.unique args hxs hys]
  | .leaf leaf span, x, y, h, h' => by
      cases h with
      | leaf hx =>
          cases h' with
          | leaf hy => exact Except.ok.inj (hx.symm.trans hy)
  termination_by structural p => p

theorem ReadsAll.unique : ∀ (cs : List Chain) {xs ys : List Tree}, ReadsAll source cs xs →
    ReadsAll source cs ys → xs = ys
  | [], xs, ys, h, h' => by
      cases h
      cases h'
      rfl
  | c :: cs, xs, ys, h, h' => by
      cases h with
      | cons hx hxs =>
          cases h' with
          | cons hy hys =>
              rw [hx.eq_of_operands hy (ReadsOperands.unique c), ReadsAll.unique cs hxs hys]
  termination_by structural cs => cs

end

theorem ReadsChain.unique {c : Chain} {x y : Tree} (hx : ReadsChain source c x)
    (hy : ReadsChain source c y) : x = y :=
  hx.eq_of_operands hy (ReadsOperands.unique c)

end Unique

/-! ### Building finds the tree -/

section Building

variable {source : String} {maxDepth : Nat}

theorem nest_eq_ok {x : Tree} {height : Nat} {b : Built}
    (h : nest source maxDepth x height = .ok b) :
    height + 1 ≤ maxDepth ∧ b = ⟨x, height + 1⟩ := by
  unfold nest at h
  split at h
  · cases h
  · rename_i hheight
    exact ⟨Nat.not_lt.1 hheight, (Except.ok.inj h).symm⟩

/-- Operators are placed above operands that were built, and all of them were. -/
theorem fold_eq_ok {t : Skeleton (Build Built)} {b : Built}
    (h : t.fold (signed source maxDepth) (joined source maxDepth) = .ok b) :
    ∃ u : Skeleton Built, t = u.map .ok ∧
      b.tree = (u.map Built.tree).fold signedTree joinedTree := by
  induction t generalizing b with
  | operand x =>
      obtain rfl : x = .ok b := h
      exact ⟨.operand b, rfl, rfl⟩
  | signed s x ih =>
      obtain ⟨a, ha, hnest⟩ := bind_eq_ok_iff.1 h
      obtain ⟨u, rfl, htree⟩ := ih ha
      obtain ⟨-, rfl⟩ := nest_eq_ok hnest
      refine ⟨.signed s u, rfl, ?_⟩
      rw [Skeleton.map, Skeleton.fold, ← htree]
      rfl
  | joined op x y ihx ihy =>
      obtain ⟨a, ha, h⟩ := bind_eq_ok_iff.1 h
      obtain ⟨a', ha', hnest⟩ := bind_eq_ok_iff.1 h
      obtain ⟨u, rfl, htree⟩ := ihx ha
      obtain ⟨v, rfl, htree'⟩ := ihy ha'
      obtain ⟨-, rfl⟩ := nest_eq_ok hnest
      refine ⟨.joined op u v, rfl, ?_⟩
      rw [Skeleton.map, Skeleton.fold, ← htree, ← htree']
      rfl

/-- A chain reads as the tree that is built from it if its operands read as theirs. -/
theorem readsChain_of_assembled {c : Chain} {b : Built}
    (h : assembled source maxDepth c (operandsOf source maxDepth c) = .ok b)
    (hoperands : ∀ {s : Sequence Built}, operandsOf source maxDepth c = s.map .ok →
      ReadsOperands source c (s.map Built.tree)) : ReadsChain source c b.tree := by
  unfold assembled at h
  split at h
  · cases h
  · obtain ⟨t, hsequence, hlayered⟩ := exists_layered (operandsOf source maxDepth c)
    rw [← hsequence, grouped_sequence hlayered] at h
    obtain ⟨u, rfl, htree⟩ := fold_eq_ok h
    rw [Skeleton.sequence_map] at hsequence
    have hreads := hoperands hsequence.symm
    rw [← Skeleton.sequence_map] at hreads
    rw [htree]
    exact .intro hreads (layered_map.2 (layered_map.1 hlayered))

mutual

theorem readsOperands_of_operandsOf : ∀ (c : Chain) {s : Sequence Built},
    operandsOf source maxDepth c = s.map .ok → ReadsOperands source c (s.map Built.tree)
  | .single (.mk signs p), s, h => by
      obtain ⟨⟨signs', b⟩, links⟩ := s
      rw [operandsOf, ofOperand] at h
      injection h with hfirst hlinks
      injection hfirst with hsigns hb
      obtain rfl := hsigns
      obtain rfl := List.map_eq_nil_iff.1 hlinks.symm
      exact .single (readsPrimary_of_ofPrimary p hb)
  | .link (.mk signs p) op span rest, s, h => by
      obtain ⟨⟨signs', b⟩, links⟩ := s
      rw [operandsOf, ofOperand] at h
      injection h with hfirst hlinks
      injection hfirst with hsigns hb
      obtain rfl := hsigns
      obtain ⟨⟨op', y⟩, links, rfl, hlink, hrest⟩ := List.map_eq_cons_iff.1 hlinks.symm
      injection hlink with hop hy
      obtain rfl := hop
      have hlater : operandsOf source maxDepth rest = (Sequence.mk y links).map .ok := by
        rw [Sequence.map, hy, hrest]
      exact .link (readsPrimary_of_ofPrimary p hb) (readsOperands_of_operandsOf rest hlater)
  termination_by structural c => c

theorem readsPrimary_of_ofPrimary : ∀ (p : Primary) {b : Built},
    ofPrimary source maxDepth p = .ok b → ReadsPrimary source p b.tree
  | .group inner span, b, h => by
      rw [ofPrimary] at h
      obtain ⟨x, hx, h⟩ := bind_eq_ok_iff.1 h
      cases h
      exact .group (readsChain_of_assembled hx (readsOperands_of_operandsOf inner))
  | .call name args span, b, h => by
      rw [ofPrimary] at h
      obtain ⟨⟨xs, height⟩, hxs, h⟩ := bind_eq_ok_iff.1 h
      obtain ⟨-, rfl⟩ := nest_eq_ok h
      exact .call (readsAll_of_ofChains args hxs)
  | .leaf leaf span, b, h => by
      rw [ofPrimary] at h
      obtain ⟨x, hx, h⟩ := bind_eq_ok_iff.1 h
      cases h
      exact .leaf hx
  termination_by structural p => p

theorem readsAll_of_ofChains : ∀ (cs : List Chain) {xs : List Tree} {height : Nat},
    ofChains source maxDepth cs = .ok (xs, height) → ReadsAll source cs xs
  | [], xs, height, h => by
      cases h
      exact .nil
  | c :: cs, xs, height, h => by
      rw [ofChains] at h
      obtain ⟨x, hx, h⟩ := bind_eq_ok_iff.1 h
      obtain ⟨⟨ys, height'⟩, hys, h⟩ := bind_eq_ok_iff.1 h
      cases h
      exact .cons (readsChain_of_assembled hx (readsOperands_of_operandsOf c))
        (readsAll_of_ofChains cs hys)
  termination_by structural cs => cs

end

/-- The chain of a text that is read reads as the tree. -/
theorem exists_reads_of_parse {t : Tree} (h : parse maxDepth source = .ok t) :
    ∃ c, recognize source.toList = .ok c ∧ ReadsChain source c t := by
  unfold parse at h
  split at h
  · cases h
  · split at h
    · cases h
    · rename_i c hc
      obtain ⟨b, hb, rfl⟩ := map_eq_ok_iff.1 h
      exact ⟨c, hc, readsChain_of_assembled hb (readsOperands_of_operandsOf c)⟩

end Building

/-- A text that is read is spelled by one chain, and its tree is the only one as which the chain
reads.  In it every sequence of operands and operators, at every level of groups and calls,
stands in the order of the text and is grouped by the layers of the grammar, which leave no
choice. -/
theorem parse_reads {maxDepth : Nat} {source : String} {t : Tree}
    (h : parse maxDepth source = .ok t) :
    ∃ c, recognize source.toList = .ok c ∧ Spells source.toList c ∧ ReadsChain source c t ∧
      (∀ t', ReadsChain source c t' → t' = t) ∧
      ∀ s : Sequence Tree, ∃ u : Skeleton Tree, (u.sequence = s ∧ Layered .disjunction u) ∧
        ∀ u' : Skeleton Tree, u'.sequence = s → Layered .disjunction u' → u' = u := by
  obtain ⟨c, hc, hreads⟩ := exists_reads_of_parse h
  exact ⟨c, hc, spells_of_recognize hc, hreads, fun t' ht' => ht'.unique hreads,
    exists_unique_layered⟩

/-- Signs bind tighter than products and less tightly than powers, and a power may have a sign
on its right. -/
theorem parse_reads_of_signs :
    ∃ t c, parse defaultMaxDepth "-a ^ -b * c" = .ok t ∧
      recognize "-a ^ -b * c".toList = .ok c ∧ ReadsChain "-a ^ -b * c" c t ∧
      t.sameShape (arithmetic .mul default
        (unary .neg default (arithmetic .pow default (ident "a" default)
          (unary .neg default (ident "b" default)))) (ident "c" default)) = true := by
  have hcheck : ((parse defaultMaxDepth "-a ^ -b * c").toOption.any
      (sameShape · (arithmetic .mul default
        (unary .neg default (arithmetic .pow default (ident "a" default)
          (unary .neg default (ident "b" default)))) (ident "c" default)))) = true := by
    decide +kernel
  obtain ⟨t, ht, hshape⟩ := (Option.any_eq_true _ _).1 hcheck
  have hparse := toOption_eq_some_iff.1 ht
  obtain ⟨c, hc, -, hreads, -⟩ := parse_reads hparse
  exact ⟨t, c, hparse, hc, hreads, hshape⟩

end RowFormula.Tree
