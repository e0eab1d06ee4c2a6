/-
# The operands of a chain

What becomes of a chain is settled at its leaves, the operands without parts.  If all of them
can be read, the chain reads as a tree; if it is not built into one although it is not too high,
one of its leaves is at fault.  Of the leaves that the grammar admits only texts with an escape
by the number of a surrogate cannot be read.
-/

import RowFormula.Proofs.Depth
import RowFormula.Proofs.Escapes
import RowFormula.Proofs.Numerals
import RowFormula.Proofs.Spans

namespace RowFormula

namespace Grammar

open Cursor (Passes Reaches)

/-! ### Operands and leaves -/

/-- The signs in front of an operand. -/
def Operand.signs : Operand → List Sign
  | .mk signs _ => signs

/-- An operand without its signs. -/
def Operand.primary : Operand → Primary
  | .mk _ p => p

/-- The operands of a chain, with the operators between them. -/
def Chain.sequence : Chain → Sequence Primary
  | .single x => ⟨⟨x.signs, x.primary⟩, []⟩
  | .link x op _ rest => ⟨⟨x.signs, x.primary⟩, (op, rest.sequence.first) :: rest.sequence.links⟩

mutual

/-- The operands without parts that stand anywhere in a chain, and their places. -/
def Chain.leaves : Chain → List (Leaf × Span)
  | .single (.mk _ p) => p.leaves
  | .link (.mk _ p) _ _ rest => p.leaves ++ rest.leaves

def Primary.leaves : Primary → List (Leaf × Span)
  | .group inner _ => inner.leaves
  | .call _ args _ => leavesOfAll args
  | .leaf leaf span => [(leaf, span)]

def leavesOfAll : List Chain → List (Leaf × Span)
  | [] => []
  | c :: cs => c.leaves ++ leavesOfAll cs

end

/-- Induction over a chain from its end. -/
theorem Chain.induction {motive : Chain → Prop} (single : ∀ signs p, motive (.single (.mk signs p)))
    (link : ∀ signs p op span rest, motive rest → motive (.link (.mk signs p) op span rest))
    (c : Chain) : motive c :=
  @Chain.rec motive
    (fun x => motive (.single x) ∧ ∀ op span rest, motive rest → motive (.link x op span rest))
    (fun _ => True) (fun _ => True)
    (fun _ hx => hx.1)
    (fun _ op span rest hx hrest => hx.2 op span rest hrest)
    (fun signs p _ => ⟨single signs p, link signs p⟩)
    (fun _ _ _ => trivial) (fun _ _ _ _ => trivial) (fun _ _ => trivial)
    trivial (fun _ _ _ _ => trivial) c

/-- Induction over an operand and all operands in its chains. -/
theorem Primary.induction {motive : Primary → Prop}
    (group : ∀ inner span, (∀ p ∈ inner.sequence.operands, motive p) →
      motive (.group inner span))
    (call : ∀ name args span, (∀ c ∈ args, ∀ p ∈ c.sequence.operands, motive p) →
      motive (.call name args span))
    (leaf : ∀ leaf span, motive (.leaf leaf span)) (p : Primary) : motive p :=
  @Primary.rec (fun c => ∀ p ∈ c.sequence.operands, motive p) (fun x => motive x.primary) motive
    (fun cs => ∀ c ∈ cs, ∀ p ∈ c.sequence.operands, motive p)
    (fun _ hx => List.forall_mem_singleton.2 hx)
    (fun _ _ _ _ hx hrest => List.forall_mem_cons.2 ⟨hx, hrest⟩)
    (fun _ _ hp => hp)
    (fun inner span hinner => group inner span hinner)
    (fun name args span hargs => call name args span hargs)
    leaf
    (List.forall_mem_nil _)
    (fun _ _ hc hcs => List.forall_mem_cons.2 ⟨hc, hcs⟩) p

theorem Chain.operands_single (signs : List Sign) (p : Primary) :
    (single (.mk signs p)).sequence.operands = [p] := rfl

theorem Chain.operands_link (signs : List Sign) (p : Primary) (op : InfixOp) (span : Span)
    (rest : Chain) :
    (link (.mk signs p) op span rest).sequence.operands = p :: rest.sequence.operands := rfl

theorem Chain.leaves_single (signs : List Sign) (p : Primary) :
    (single (.mk signs p)).leaves = p.leaves := rfl

theorem Chain.leaves_link (signs : List Sign) (p : Primary) (op : InfixOp) (span : Span)
    (rest : Chain) : (link (.mk signs p) op span rest).leaves = p.leaves ++ rest.leaves := rfl

theorem Primary.leaves_group (inner : Chain) (span : Span) :
    (group inner span).leaves = inner.leaves := rfl

theorem Primary.leaves_call (name : List Char) (args : List Chain) (span : Span) :
    (call name args span).leaves = leavesOfAll args := rfl

theorem Primary.leaves_leaf (leaf : Leaf) (span : Span) :
    (Primary.leaf leaf span).leaves = [(leaf, span)] := rfl

theorem leavesOfAll_cons (c : Chain) (cs : List Chain) :
    leavesOfAll (c :: cs) = c.leaves ++ leavesOfAll cs := rfl

theorem Chain.mem_leaves {c : Chain} {x : Leaf × Span} :
    x ∈ c.leaves ↔ ∃ p ∈ c.sequence.operands, x ∈ p.leaves := by
  induction c using Chain.induction with
  | single signs p =>
      rw [leaves_single, operands_single]
      simp only [List.mem_singleton, exists_eq_left]
  | link signs p op span rest ih =>
      rw [leaves_link, operands_link, List.mem_append, ih]
      simp only [List.mem_cons, exists_eq_or_imp]

theorem Chain.forall_leaves {c : Chain} {P : Leaf × Span → Prop} :
    (∀ x ∈ c.leaves, P x) ↔ ∀ p ∈ c.sequence.operands, ∀ x ∈ p.leaves, P x :=
  ⟨fun h p hp x hx => h x (mem_leaves.2 ⟨p, hp, hx⟩), fun h x hx => by
    obtain ⟨p, hp, hx⟩ := mem_leaves.1 hx
    exact h p hp x hx⟩

theorem forall_leavesOfAll {cs : List Chain} {P : Leaf × Span → Prop} :
    (∀ x ∈ leavesOfAll cs, P x) ↔ ∀ c ∈ cs, ∀ x ∈ c.leaves, P x := by
  induction cs with
  | nil => exact iff_of_true (List.forall_mem_nil _) (List.forall_mem_nil _)
  | cons c cs ih => rw [leavesOfAll_cons, List.forall_mem_append, List.forall_mem_cons, ih]

/-- One of the texts in the chain has an escape by the number of a surrogate. -/
def Chain.HasSurrogate (c : Chain) : Prop :=
  ∃ content span, (Leaf.string content, span) ∈ c.leaves ∧ Grammar.HasSurrogate content

/-- The leaf is spelled at its place between the cursors. -/
def HoldsLeaf (s : Cursor) (x : Leaf × Span) (s' : Cursor) : Prop :=
  ∃ u u' cs, s.Reaches u ∧ SpellsLeaf cs x.1 ∧ u.Passes cs u' ∧ u'.Reaches s' ∧
    x.2 = ⟨u.position, u'.position⟩

theorem HoldsLeaf.widen {s s₁ s₂ s' : Cursor} {x : Leaf × Span} (hs : s.Reaches s₁)
    (h : HoldsLeaf s₁ x s₂) (hs' : s₂.Reaches s') : HoldsLeaf s x s' := by
  obtain ⟨u, u', cs, hu, hspells, hpasses, hu', hspan⟩ := h
  exact ⟨u, u', cs, hs.trans hu, hspells, hpasses, hu'.trans hs', hspan⟩

/-- The text between two cursors holds a text that spells the operand. -/
def HoldsPrimary (s : Cursor) (p : Primary) (s' : Cursor) : Prop :=
  ∃ t t', s.Reaches t ∧ SpellsPrimary t p t' ∧ t'.Reaches s'

/-- All operands of a chain are spelled where it is. -/
theorem SpellsChain.holdsPrimary {c : Chain} {s s' : Cursor} (h : SpellsChain s c s') :
    ∀ p ∈ c.sequence.operands, HoldsPrimary s p s' := by
  induction c using Chain.induction generalizing s with
  | single signs p =>
      cases h with
      | single hoperand =>
          cases hoperand with
          | mk hsigns hp =>
              exact List.forall_mem_singleton.2 ⟨_, _, hsigns.between.reaches, hp, .refl _⟩
  | link signs p op span rest ih =>
      cases h with
      | link hoperand hblanks hoperator hblanks' hrest =>
          have hmiddle := hblanks.reaches.trans (hoperator.reaches.trans hblanks'.reaches)
          have hfirst := SpellsOperand.reaches _ hoperand
          cases hoperand with
          | mk hsigns hp =>
              refine List.forall_mem_cons.2 ⟨⟨_, _, hsigns.between.reaches, hp,
                hmiddle.trans (SpellsChain.reaches rest hrest)⟩, fun q hq => ?_⟩
              obtain ⟨t, t', ht, hspells, ht'⟩ := ih hrest q hq
              exact ⟨t, t', hfirst.trans (hmiddle.trans ht), hspells, ht'⟩

/-- All leaves of an operand are spelled where it is. -/
theorem SpellsPrimary.holdsLeaf {p : Primary} {s s' : Cursor} (h : SpellsPrimary s p s') :
    ∀ x ∈ p.leaves, HoldsLeaf s x s' := by
  induction p using Primary.induction generalizing s s' with
  | group inner span ih =>
      cases h with
      | group hopen hblanks hinner hblanks' hclose =>
          rw [Primary.leaves_group, Chain.forall_leaves]
          intro p hp x hx
          obtain ⟨t, t', ht, hspells, ht'⟩ := hinner.holdsPrimary p hp
          exact (ih p hp hspells x hx).widen (hopen.reaches.trans (hblanks.reaches.trans ht))
            (ht'.trans (hblanks'.reaches.trans hclose.reaches))
  | call name args span ih =>
      cases h with
      | call _ hname hblanks hopen hblanks' hargs hblanks'' hclose =>
          rw [Primary.leaves_call, forall_leavesOfAll]
          intro c hc
          rw [Chain.forall_leaves]
          intro p hp x hx
          obtain ⟨u, u', hu, hchain, hu'⟩ := hargs.holdsChain c hc
          obtain ⟨t, t', ht, hspells, ht'⟩ := hchain.holdsPrimary p hp
          have hfront := hname.reaches.trans (hblanks.reaches.trans
            (hopen.reaches.trans hblanks'.reaches))
          exact (ih c hc p hp hspells x hx).widen (hfront.trans (hu.trans ht))
            (ht'.trans (hu'.trans (hblanks''.reaches.trans hclose.reaches)))
  | leaf leaf span =>
      cases h with
      | leaf hleaf hpasses =>
          exact List.forall_mem_singleton.2
            ⟨s, s', _, .refl s, hleaf, hpasses, .refl s', rfl⟩

/-- The leaves of a text that spells a chain are spelled in it. -/
theorem Spells.holdsLeaf {source : List Char} {c : Chain} (h : Spells source c) :
    ∃ s', ∀ x ∈ c.leaves, HoldsLeaf ⟨source, 0⟩ x s' := by
  obtain ⟨s, s', t, hblanks, hc, -, -⟩ := h
  refine ⟨s', Chain.forall_leaves.2 fun p hp x hx => ?_⟩
  obtain ⟨u, u', hu, hspells, hu'⟩ := hc.holdsPrimary p hp
  exact (hspells.holdsLeaf x hx).widen (hblanks.reaches.trans hu) hu'

end Grammar

namespace Tree

open Grammar

section Leaves

variable {source : String} {maxDepth : Nat} {span : Span} {cs : List Char} {leaf : Leaf}

/-- Every number of the grammar can be read. -/
theorem exists_readNumber (h : IsDigits cs ∨ IsFloat cs) :
    ∃ x, readNumber source cs span = .ok x := by
  obtain ⟨n, rfl⟩ := exists_numeral h
  refine ⟨n.denoted, ?_⟩
  simp only [readNumber, n.read?_chars]
  rfl

/-- Every leaf of the grammar can be read, but for texts that have a surrogate. -/
theorem exists_ofLeaf_iff (h : SpellsLeaf cs leaf) :
    (∃ t, ofLeaf source span leaf = .ok t) ↔
      ∀ content, leaf = .string content → ¬ HasSurrogate content := by
  cases h with
  | attributeRef | macroRef | ident =>
      simp only [reduceCtorEq, false_imp_iff, implies_true, iff_true]
      exact ⟨_, rfl⟩
  | float hfloat =>
      obtain ⟨x, hx⟩ := @exists_readNumber source span _ (.inr hfloat)
      simp only [reduceCtorEq, false_imp_iff, implies_true, iff_true]
      exact ⟨.float x span, by rw [ofLeaf, hx]; rfl⟩
  | integer hdigits =>
      obtain ⟨x, hx⟩ := @exists_readNumber source span _ (.inl hdigits)
      simp only [reduceCtorEq, false_imp_iff, implies_true, iff_true]
      exact ⟨.integer x span, by rw [ofLeaf, hx]; rfl⟩
  | string hparts =>
      have hread := exists_unescape_iff hparts
      simp only [Leaf.string.injEq, forall_eq']
      rw [← hread, ofLeaf]
      split
      · rename_i s hs
        exact iff_of_true ⟨_, rfl⟩ ⟨s, hs⟩
      · rename_i fault hfault
        simp only [hfault, refuse, throw, throwThe, MonadExceptOf.throw, reduceCtorEq, exists_false]

/-- The only leaves at fault are texts that have a surrogate. -/
theorem ofLeaf_eq_error {e : SyntaxError} (h : SpellsLeaf cs leaf)
    (he : ofLeaf source span leaf = .error e) :
    ∃ content position n, leaf = .string content ∧ HasSurrogate content ∧
      0xD800 ≤ n ∧ n ≤ 0xDFFF ∧ e = ⟨.invalidString (.notScalar position n), source, span⟩ := by
  cases h with
  | attributeRef | macroRef | ident => cases he
  | float hfloat =>
      obtain ⟨x, hx⟩ := @exists_readNumber source span _ (.inr hfloat)
      rw [ofLeaf, hx] at he
      cases he
  | integer hdigits =>
      obtain ⟨x, hx⟩ := @exists_readNumber source span _ (.inl hdigits)
      rw [ofLeaf, hx] at he
      cases he
  | string hparts =>
      rw [ofLeaf] at he
      split at he
      · cases he
      · rename_i fault hfault
        cases he
        obtain ⟨⟨position, n, rfl, hlower, hupper⟩, hsurrogate⟩ := unescape_eq_error hparts hfault
        exact ⟨_, position, n, rfl, hsurrogate, hlower, hupper, rfl⟩

/-! ### Reading -/

theorem exists_readsOperands_iff {c : Chain} : (∃ s, ReadsOperands source c s) ↔
    ∀ p ∈ c.sequence.operands, ∃ x, ReadsPrimary source p x := by
  induction c using Chain.induction with
  | single signs p =>
      refine Iff.trans ⟨?_, ?_⟩ List.forall_mem_singleton.symm
      · rintro ⟨s, h⟩
        cases h with
        | single hx => exact ⟨_, hx⟩
      · rintro ⟨x, hx⟩
        exact ⟨_, .single hx⟩
  | link signs p op span rest ih =>
      refine Iff.trans ?_ List.forall_mem_cons.symm
      refine Iff.trans ⟨?_, ?_⟩ (and_congr_right fun _ => ih)
      · rintro ⟨s, h⟩
        cases h with
        | link hx hrest => exact ⟨⟨_, hx⟩, _, hrest⟩
      · rintro ⟨⟨x, hx⟩, s, hrest⟩
        exact ⟨_, .link hx hrest⟩

/-- Whatever the operands read as can be grouped. -/
theorem exists_readsChain_iff_operands {c : Chain} : (∃ t, ReadsChain source c t) ↔
    ∀ p ∈ c.sequence.operands, ∃ x, ReadsPrimary source p x := by
  rw [← exists_readsOperands_iff]
  constructor
  · rintro ⟨_, ⟨hs, -⟩⟩
    exact ⟨_, hs⟩
  · rintro ⟨s, hs⟩
    obtain ⟨t, rfl, hlayered⟩ := exists_layered s
    exact ⟨_, .intro hs hlayered⟩

theorem exists_readsChain_iff_of_operands {c : Chain}
    (h : ∀ p ∈ c.sequence.operands, (∃ x, ReadsPrimary source p x) ↔
      ∀ x ∈ p.leaves, ∃ t, ofLeaf source x.2 x.1 = .ok t) :
    (∃ t, ReadsChain source c t) ↔ ∀ x ∈ c.leaves, ∃ t, ofLeaf source x.2 x.1 = .ok t := by
  rw [exists_readsChain_iff_operands, Chain.forall_leaves]
  exact forall₂_congr h

theorem exists_readsAll_iff {cs : List Chain} : (∃ xs, ReadsAll source cs xs) ↔
    ∀ c ∈ cs, ∃ t, ReadsChain source c t := by
  induction cs with
  | nil => exact iff_of_true ⟨[], .nil⟩ (List.forall_mem_nil _)
  | cons c cs ih =>
      rw [List.forall_mem_cons, ← ih]
      constructor
      · rintro ⟨xs, h⟩
        cases h with
        | cons hc hcs => exact ⟨⟨_, hc⟩, _, hcs⟩
      · rintro ⟨⟨t, ht⟩, xs, hxs⟩
        exact ⟨_, .cons ht hxs⟩

/-- An operand reads as a tree if all of its leaves can be read. -/
theorem exists_readsPrimary_iff {p : Primary} : (∃ x, ReadsPrimary source p x) ↔
    ∀ x ∈ p.leaves, ∃ t, ofLeaf source x.2 x.1 = .ok t := by
  induction p using Primary.induction with
  | group inner span ih =>
      have hgroup : (∃ x, ReadsPrimary source (.group inner span) x) ↔
          ∃ t, ReadsChain source inner t := by
        constructor
        · rintro ⟨x, h⟩
          cases h with
          | group hinner => exact ⟨_, hinner⟩
        · rintro ⟨t, ht⟩
          exact ⟨_, .group ht⟩
      rw [hgroup, Primary.leaves_group]
      exact exists_readsChain_iff_of_operands ih
  | call name args span ih =>
      have hcall : (∃ x, ReadsPrimary source (.call name args span) x) ↔
          ∃ xs, ReadsAll source args xs := by
        constructor
        · rintro ⟨x, h⟩
          cases h with
          | call hxs => exact ⟨_, hxs⟩
        · rintro ⟨xs, hxs⟩
          exact ⟨_, .call hxs⟩
      rw [hcall, exists_readsAll_iff, Primary.leaves_call, forall_leavesOfAll]
      exact forall₂_congr fun c hc => exists_readsChain_iff_of_operands (ih c hc)
  | leaf leaf span =>
      rw [Primary.leaves_leaf, List.forall_mem_singleton]
      constructor
      · rintro ⟨x, h⟩
        cases h with
        | leaf hx => exact ⟨x, hx⟩
      · rintro ⟨x, hx⟩
        exact ⟨x, .leaf hx⟩

/-- A text that spells a chain reads as a tree unless it has a surrogate somewhere. -/
theorem exists_readsChain_iff_of_spells {chars : List Char} {c : Chain} (h : Spells chars c) :
    (∃ t, ReadsChain source c t) ↔ ¬ c.HasSurrogate := by
  obtain ⟨s', hleaves⟩ := h.holdsLeaf
  rw [exists_readsChain_iff_of_operands fun _ _ => exists_readsPrimary_iff]
  constructor
  · rintro hread ⟨content, span, hmem, hsurrogate⟩
    obtain ⟨_, _, cs, _, hspells, -⟩ := hleaves _ hmem
    exact (exists_ofLeaf_iff hspells).1 (hread _ hmem) content rfl hsurrogate
  · rintro hnone ⟨leaf, span⟩ hmem
    obtain ⟨_, _, cs, _, hspells, -⟩ := hleaves _ hmem
    refine (exists_ofLeaf_iff hspells).2 ?_
    rintro content rfl hsurrogate
    exact hnone ⟨content, span, hmem, hsurrogate⟩

/-! ### Building -/

theorem operandsOf_eq (c : Chain) :
    operandsOf source maxDepth c = c.sequence.map (ofPrimary source maxDepth) := by
  induction c using Chain.induction with
  | single signs p =>
      rw [operandsOf, ofOperand]
      rfl
  | link signs p op span rest ih =>
      rw [operandsOf, ofOperand, ih]
      rfl

/-- Every failure is due to the limit or to one of the leaves. -/
def Blames (source : String) (maxDepth : Nat) (leaves : List (Leaf × Span)) (x : Build α) : Prop :=
  ∀ e, x = .error e →
    e.fault = .tooDeep maxDepth ∨ ∃ leaf ∈ leaves, ofLeaf source leaf.2 leaf.1 = .error e

section Blames

variable {α β : Type} {leaves : List (Leaf × Span)}

theorem Blames.bind {x : Build α} {f : α → Build β} (hx : Blames source maxDepth leaves x)
    (hf : ∀ a, Blames source maxDepth leaves (f a)) : Blames source maxDepth leaves (x >>= f) := by
  intro e he
  obtain he | ⟨a, -, he⟩ := bind_eq_error_iff.1 he
  · exact hx e he
  · exact hf a e he

theorem Blames.mono {more : List (Leaf × Span)} {x : Build α} (h : Blames source maxDepth leaves x)
    (hmore : ∀ leaf ∈ leaves, leaf ∈ more) : Blames source maxDepth more x := by
  intro e he
  obtain he | ⟨leaf, hleaf, he⟩ := h e he
  · exact .inl he
  · exact .inr ⟨leaf, hmore leaf hleaf, he⟩

theorem blames_pure {a : α} : Blames source maxDepth leaves (pure a : Build α) := by
  intro e he
  cases he

theorem blames_tooDeep {span : Span} :
    Blames source maxDepth leaves (refuse source (.tooDeep maxDepth) span : Build α) := by
  rintro e ⟨⟩
  exact .inl rfl

theorem blames_nest {t : Tree} {height : Nat} :
    Blames source maxDepth leaves (nest source maxDepth t height) := by
  unfold nest
  split
  · exact blames_tooDeep
  · exact blames_pure

theorem blames_assembled {c : Chain} (h : ∀ p ∈ c.sequence.operands,
    Blames source maxDepth p.leaves (ofPrimary source maxDepth p)) :
    Blames source maxDepth c.leaves
      (assembled source maxDepth c (operandsOf source maxDepth c)) := by
  unfold assembled
  split
  · exact blames_tooDeep
  · rw [operandsOf_eq]
    refine grouped_induct (fun s _ hx => hx.bind fun _ => blames_nest)
      (fun op _ _ hx hy => hx.bind fun _ => hy.bind fun _ => blames_nest) ?_
    rw [Sequence.operands_map]
    exact List.forall_mem_map.2 fun p hp =>
      (h p hp).mono fun leaf hleaf => Chain.mem_leaves.2 ⟨p, hp, hleaf⟩

theorem blames_ofChains {cs : List Chain} (h : ∀ c ∈ cs, ∀ p ∈ c.sequence.operands,
    Blames source maxDepth p.leaves (ofPrimary source maxDepth p)) :
    Blames source maxDepth (leavesOfAll cs) (ofChains source maxDepth cs) := by
  induction cs with
  | nil => exact blames_pure
  | cons c cs ih =>
      rw [List.forall_mem_cons] at h
      rw [ofChains, leavesOfAll_cons]
      have hc := (blames_assembled h.1).mono fun _ => List.mem_append_left (leavesOfAll cs)
      have hcs := (ih h.2).mono fun _ => List.mem_append_right c.leaves
      exact hc.bind fun _ => hcs.bind fun _ => blames_pure

theorem blames_ofPrimary (p : Primary) :
    Blames source maxDepth p.leaves (ofPrimary source maxDepth p) := by
  induction p using Primary.induction with
  | group inner span ih =>
      rw [ofPrimary, Primary.leaves_group]
      exact (blames_assembled ih).bind fun _ => blames_pure
  | call name args span ih =>
      rw [ofPrimary, Primary.leaves_call]
      exact (blames_ofChains ih).bind fun _ => blames_nest
  | leaf leaf span =>
      rw [ofPrimary, Primary.leaves_leaf]
      refine Blames.bind ?_ fun _ => blames_pure
      exact fun e he => .inr ⟨_, .head _, he⟩

/-- A chain is built unless its tree is too high or one of its leaves is at fault. -/
theorem blames_ofChain (c : Chain) : Blames source maxDepth c.leaves (ofChain source maxDepth c) :=
  blames_assembled fun p _ => blames_ofPrimary p

end Blames

end Leaves

end Tree

end RowFormula
