/-
# Where nodes stand

A span belongs to the text between two cursors, and parts that stand one behind the other stay
so while a text is read: operators are grouped, but nothing changes its place.  So every node of
a tree has a span of the text that was read, and so has every fault that is met on the way.
-/

import RowFormula.Proofs.Origins
import RowFormula.Proofs.Positions
import RowFormula.Proofs.Reading

namespace RowFormula

open Grammar (Cursor)
open Grammar.Cursor (Reaches)

namespace Span

/-- The span is that of a text between the cursors. -/
def Between (span : Span) (s s' : Cursor) : Prop :=
  ∃ t t', s.Reaches t ∧ t.Reaches t' ∧ t'.Reaches s' ∧ span = ⟨t.position, t'.position⟩

variable {span other : Span} {s s₁ s₂ s' : Cursor}

theorem between_self (h : s.Reaches s') : Between ⟨s.position, s'.position⟩ s s' :=
  ⟨s, s', .refl s, h, .refl s', rfl⟩

theorem Between.widen (hs : s.Reaches s₁) (h : span.Between s₁ s₂) (hs' : s₂.Reaches s') :
    span.Between s s' := by
  obtain ⟨t, t', ht, hspan, ht', rfl⟩ := h
  exact ⟨t, t', hs.trans ht, hspan, ht'.trans hs', rfl⟩

theorem Between.reaches (h : span.Between s s') : s.Reaches s' := by
  obtain ⟨t, t', ht, hspan, ht', -⟩ := h
  exact ht.trans (hspan.trans ht')

theorem Between.combine (h : span.Between s s₁) (h' : other.Between s₁ s') :
    (combine span other).Between s s' := by
  obtain ⟨t, t', ht, hspan, ht', rfl⟩ := h
  obtain ⟨u, u', hu, hother, hu', rfl⟩ := h'
  exact ⟨t, u', ht, hspan.trans (ht'.trans (hu.trans hother)), hu', rfl⟩

theorem Between.fits {source : String} (h : span.Between ⟨source.toList, 0⟩ s') :
    span.Fits source := by
  obtain ⟨t, t', ht, hspan, -, rfl⟩ := h
  exact ht.fits hspan

end Span

/-! ### Sequences -/

namespace Grammar

/-- Operators in front of an operand stand one behind the other. -/
inductive SignsBetween : Cursor → List Sign → Cursor → Prop
  | nil {s s' : Cursor} : s.Reaches s' → SignsBetween s [] s'
  | cons {s s₁ s' : Cursor} {x : Sign} {signs : List Sign} :
      x.span.Between s s₁ → SignsBetween s₁ signs s' → SignsBetween s (x :: signs) s'

section Placed

variable {α : Type} (P : Cursor → α → Cursor → Prop)

/-- The operand stands behind its signs. -/
def SignedBetween (s : Cursor) (x : Signed α) (s' : Cursor) : Prop :=
  ∃ s₁, SignsBetween s x.signs s₁ ∧ P s₁ x.operand s'

inductive LinksBetween : Cursor → List (Link α) → Cursor → Prop
  | nil {s : Cursor} : LinksBetween s [] s
  | cons {s s₁ s₂ s' : Cursor} {link : Link α} {links : List (Link α)} :
      s.Reaches s₁ → SignedBetween P s₁ link.2 s₂ → LinksBetween s₂ links s' →
      LinksBetween s (link :: links) s'

/-- The operands stand one behind the other. -/
def SequenceBetween (s : Cursor) (xs : Sequence α) (s' : Cursor) : Prop :=
  ∃ s₁, SignedBetween P s xs.first s₁ ∧ LinksBetween P s₁ xs.links s'

variable {P} {s s' : Cursor}

theorem LinksBetween.of_append_cons {xs ys : List (Link α)} {link : Link α}
    (h : LinksBetween P s (xs ++ link :: ys) s') :
    ∃ s₁ s₂ s₃, LinksBetween P s xs s₁ ∧ s₁.Reaches s₂ ∧ SignedBetween P s₂ link.2 s₃ ∧
      LinksBetween P s₃ ys s' := by
  induction xs generalizing s with
  | nil =>
      cases h with
      | cons hs hx hlinks => exact ⟨s, _, _, .nil, hs, hx, hlinks⟩
  | cons x xs ih =>
      cases h with
      | cons hs hx hlinks =>
          obtain ⟨s₁, s₂, s₃, hxs, hs', hlink, hys⟩ := ih hlinks
          exact ⟨s₁, s₂, s₃, .cons hs hx hxs, hs', hlink, hys⟩

variable {sign : Sign → α → α} {join : InfixOp → α → α → α}

/-- Grouping a sequence leaves everything at its place: what holds of the operands with their
places and is kept by operators holds of the whole. -/
theorem grouped_between
    (hwiden : ∀ {s s₁ s₂ s' x}, s.Reaches s₁ → P s₁ x s₂ → s₂.Reaches s' → P s x s')
    (hsign : ∀ {s s₁ s' x a}, x.span.Between s s₁ → P s₁ a s' → P s (sign x a) s')
    (hjoin : ∀ {s s₁ s' op a b}, P s a s₁ → P s₁ b s' → P s (join op a b) s')
    {xs : Sequence α} (h : SequenceBetween P s xs s') : P s (grouped sign join xs) s' := by
  obtain ⟨t, rfl, hlayered⟩ := exists_layered xs
  rw [grouped_sequence hlayered]
  clear hlayered
  induction t generalizing s s' with
  | operand x =>
      obtain ⟨s₁, ⟨s₂, hsigns, hx⟩, hlinks⟩ := h
      cases hsigns with
      | nil hs =>
          cases hlinks
          exact hwiden hs hx (.refl _)
  | signed x t ih =>
      obtain ⟨s₁, ⟨s₂, hsigns, hx⟩, hlinks⟩ := h
      cases hsigns with
      | cons hspan hsigns => exact hsign hspan (ih ⟨s₁, ⟨s₂, hsigns, hx⟩, hlinks⟩)
  | joined op t u iht ihu =>
      -- The operator stands between the links of its left side and those of its right side.
      obtain ⟨s₁, hfirst, hlinks⟩ := h
      obtain ⟨s₂, s₃, s₄, ht, hs, hlink, hu⟩ := LinksBetween.of_append_cons hlinks
      exact hjoin (hwiden (.refl _) (iht ⟨s₁, hfirst, ht⟩) hs) (ihu ⟨s₄, hlink, hu⟩)

end Placed

/-! ### Chains -/

theorem PassesBlanks.reaches {s s' : Cursor} (h : PassesBlanks s s') : s.Reaches s' := by
  obtain ⟨cs, -, hcs⟩ := h
  exact hcs.reaches

theorem PassesOperator.reaches {text : String} {s s' : Cursor} (h : PassesOperator text s s') :
    s.Reaches s' := by
  obtain ⟨s₁, htext, hblanks⟩ := h
  exact htext.reaches.trans hblanks.reaches

theorem SpellsSigns.between {s s' : Cursor} {signs : List Sign} (h : SpellsSigns s signs s') :
    SignsBetween s signs s' := by
  induction h with
  | nil hblanks => exact .nil hblanks.reaches
  | cons hblanks hoperator _ ih =>
      exact .cons ((Span.between_self hoperator.reaches).widen hblanks.reaches (.refl _)) ih

theorem SignsBetween.reaches {s s' : Cursor} {signs : List Sign} (h : SignsBetween s signs s') :
    s.Reaches s' := by
  induction h with
  | nil hs => exact hs
  | cons hspan _ ih => exact hspan.reaches.trans ih

mutual

/-- The cursor behind a chain is reached from the one in front of it. -/
theorem SpellsChain.reaches : ∀ (c : Chain) {s s' : Cursor}, SpellsChain s c s' → s.Reaches s'
  | .single x, s, s', h => by
      cases h with
      | single hx => exact SpellsOperand.reaches x hx
  | .link x op span rest, s, s', h => by
      cases h with
      | link hx hblanks hoperator hblanks' hrest =>
          exact (SpellsOperand.reaches x hx).trans (hblanks.reaches.trans
            (hoperator.reaches.trans (hblanks'.reaches.trans (SpellsChain.reaches rest hrest))))
  termination_by structural c => c

theorem SpellsOperand.reaches : ∀ (x : Operand) {s s' : Cursor}, SpellsOperand s x s' →
    s.Reaches s'
  | .mk signs p, s, s', h => by
      cases h with
      | mk hsigns hp => exact hsigns.between.reaches.trans (SpellsPrimary.reaches p hp)
  termination_by structural x => x

theorem SpellsPrimary.reaches : ∀ (p : Primary) {s s' : Cursor}, SpellsPrimary s p s' →
    s.Reaches s'
  | .group inner span, s, s', h => by
      cases h with
      | group hopen hblanks hinner hblanks' hclose =>
          exact hopen.reaches.trans (hblanks.reaches.trans
            ((SpellsChain.reaches inner hinner).trans (hblanks'.reaches.trans hclose.reaches)))
  | .call name args span, s, s', h => by
      cases h with
      | call _ hname hblanks hopen hblanks' hargs hblanks'' hclose =>
          exact hname.reaches.trans (hblanks.reaches.trans (hopen.reaches.trans
            (hblanks'.reaches.trans ((SpellsArguments.reaches args hargs).trans
              (hblanks''.reaches.trans hclose.reaches)))))
  | .leaf leaf span, s, s', h => by
      cases h with
      | leaf _ hpasses => exact hpasses.reaches
  termination_by structural p => p

theorem SpellsArguments.reaches : ∀ (cs : List Chain) {s s' : Cursor}, SpellsArguments s cs s' →
    s.Reaches s'
  | [], s, s', h => by
      cases h with
      | none => exact .refl s
  | c :: cs, s, s', h => by
      cases h with
      | some hc hcs => exact (SpellsChain.reaches c hc).trans (SpellsMore.reaches cs hcs)
  termination_by structural cs => cs

theorem SpellsMore.reaches : ∀ (cs : List Chain) {s s' : Cursor}, SpellsMore s cs s' →
    s.Reaches s'
  | [], s, s', h => by
      cases h with
      | nil => exact .refl s
  | c :: cs, s, s', h => by
      cases h with
      | cons hblanks hcomma hblanks' hc hcs =>
          exact hblanks.reaches.trans (hcomma.reaches.trans (hblanks'.reaches.trans
            ((SpellsChain.reaches c hc).trans (SpellsMore.reaches cs hcs))))
  termination_by structural cs => cs

end

/-- The text between two cursors holds a text that spells the chain. -/
def HoldsChain (s : Cursor) (c : Chain) (s' : Cursor) : Prop :=
  ∃ t t', s.Reaches t ∧ SpellsChain t c t' ∧ t'.Reaches s'

theorem SpellsMore.holdsChain {s s' : Cursor} {cs : List Chain} (h : SpellsMore s cs s') :
    ∀ c ∈ cs, HoldsChain s c s' := by
  induction cs generalizing s with
  | nil => exact nofun
  | cons c cs ih =>
      cases h with
      | cons hblanks hcomma hblanks' hc hcs =>
          have hfront := hblanks.reaches.trans (hcomma.reaches.trans hblanks'.reaches)
          refine List.forall_mem_cons.2 ⟨⟨_, _, hfront, hc, SpellsMore.reaches cs hcs⟩, ?_⟩
          intro d hd
          obtain ⟨t, t', ht, hspells, ht'⟩ := ih hcs d hd
          exact ⟨t, t', hfront.trans ((SpellsChain.reaches c hc).trans ht), hspells, ht'⟩

theorem SpellsArguments.holdsChain {s s' : Cursor} {cs : List Chain}
    (h : SpellsArguments s cs s') : ∀ c ∈ cs, HoldsChain s c s' := by
  cases h with
  | none => exact nofun
  | some hc hcs =>
      refine List.forall_mem_cons.2 ⟨⟨_, _, .refl _, hc, SpellsMore.reaches _ hcs⟩, ?_⟩
      intro d hd
      obtain ⟨t, t', ht, hspells, ht'⟩ := hcs.holdsChain d hd
      exact ⟨t, t', (SpellsChain.reaches _ hc).trans ht, hspells, ht'⟩

end Grammar

namespace Tree

open Grammar

/-! ### Trees -/

/-- All nodes of the tree stand between the cursors. -/
def Between (t : Tree) (s s' : Cursor) : Prop :=
  ∀ node, t.HasNode node → node.span.Between s s'

section Trees

variable {t : Tree} {s s₁ s₂ s' : Cursor}

theorem between_iff :
    t.Between s s' ↔ t.span.Between s s' ∧ ∀ part ∈ t.parts, part.Between s s' :=
  forall_hasNode_iff

theorem Between.widen (hs : s.Reaches s₁) (h : t.Between s₁ s₂) (hs' : s₂.Reaches s') :
    t.Between s s' :=
  fun node hnode => (h node hnode).widen hs hs'

theorem Between.reaches (h : t.Between s s') : s.Reaches s' := (h t .self).reaches

theorem parts_withSpan (span : Span) (t : Tree) : (t.withSpan span).parts = t.parts := by
  cases t <;> rfl

theorem span_infixNode (op : InfixOp) (span : Span) (x y : Tree) :
    (infixNode op span x y).span = span := by
  cases op <;> rfl

theorem parts_infixNode (op : InfixOp) (span : Span) (x y : Tree) :
    (infixNode op span x y).parts = [x, y] := by
  cases op <;> rfl

end Trees

/-! ### Building -/

section Building

variable {α β : Type} {source : String} {maxDepth : Nat} {s s₁ s₂ s' : Cursor}

/-- What is built has a property, or else the fault stands between the cursors. -/
structure BuildsWithin (source : String) (s s' : Cursor) (Q : α → Prop) (x : Build α) : Prop where
  ok : ∀ {a}, x = .ok a → Q a
  error : ∀ {e}, x = .error e → e.source = source ∧ e.span.Between s s'

theorem buildsWithin_pure {Q : α → Prop} {a : α} (h : Q a) :
    BuildsWithin source s s' Q (pure a) where
  ok heq := by
    cases heq
    exact h
  error := nofun

theorem buildsWithin_refuse {Q : α → Prop} {fault : SyntaxFault} {span : Span}
    (h : span.Between s s') : BuildsWithin source s s' Q (refuse source fault span) where
  ok := nofun
  error heq := by
    cases heq
    exact ⟨rfl, h⟩

theorem BuildsWithin.bind {Q : α → Prop} {R : β → Prop} {x : Build α} {f : α → Build β}
    (hx : BuildsWithin source s s' Q x) (hf : ∀ a, Q a → BuildsWithin source s s' R (f a)) :
    BuildsWithin source s s' R (x >>= f) := by
  cases x with
  | error e => exact ⟨nofun, fun heq => by cases heq; exact hx.error rfl⟩
  | ok a => exact hf a (hx.ok rfl)

theorem BuildsWithin.mono {Q R : α → Prop} {x : Build α} (hx : BuildsWithin source s₁ s₂ Q x)
    (hs : s.Reaches s₁) (hs' : s₂.Reaches s') (h : ∀ a, Q a → R a) :
    BuildsWithin source s s' R x where
  ok heq := h _ (hx.ok heq)
  error heq := ⟨(hx.error heq).1, (hx.error heq).2.widen hs hs'⟩

theorem buildsWithin_nest {t : Tree} {height : Nat} (h : t.Between s s') :
    BuildsWithin source s s' (fun b => b.tree.Between s s') (nest source maxDepth t height) := by
  unfold nest
  split
  · exact buildsWithin_refuse (h t .self)
  · exact buildsWithin_pure h

theorem buildsWithin_readNumber {digits : List Char} {span : Span} (h : span.Between s s') :
    BuildsWithin source s s' (fun _ => True) (readNumber source digits span) := by
  unfold readNumber
  dsimp only
  split
  · exact buildsWithin_pure trivial
  · exact buildsWithin_refuse h

theorem buildsWithin_ofLeaf {leaf : Leaf} {span : Span} (h : span.Between s s') :
    BuildsWithin source s s' (fun t => t.Between s s') (ofLeaf source span leaf) := by
  have hleaf : ∀ t : Tree, t.parts = [] → t.span = span → t.Between s s' := by
    intro t hparts hspan
    rw [between_iff, hparts, hspan]
    exact ⟨h, nofun⟩
  cases leaf with
  | attributeRef | macroRef | ident => exact buildsWithin_pure (hleaf _ rfl rfl)
  | float | integer =>
      exact (buildsWithin_readNumber h).bind fun _ _ => buildsWithin_pure (hleaf _ rfl rfl)
  | string =>
      rw [ofLeaf]
      split
      · exact buildsWithin_pure (hleaf _ rfl rfl)
      · exact buildsWithin_refuse h

/-- The tree stands between the cursors, or else the fault does. -/
def BuiltBetween (source : String) (s : Cursor) (x : Build Built) (s' : Cursor) : Prop :=
  BuildsWithin source s s' (fun b => b.tree.Between s s') x

theorem BuiltBetween.widen {x : Build Built} (hs : s.Reaches s₁) (h : BuiltBetween source s₁ x s₂)
    (hs' : s₂.Reaches s') : BuiltBetween source s x s' :=
  h.mono hs hs' fun _ hb => hb.widen hs hs'

theorem BuiltBetween.reaches {x : Build Built} (h : BuiltBetween source s x s') :
    s.Reaches s' := by
  cases x with
  | error e => exact (h.error rfl).2.reaches
  | ok b => exact (h.ok rfl).reaches

theorem builtBetween_signed {x : Sign} {operand : Build Built} (hspan : x.span.Between s s₁)
    (h : BuiltBetween source s₁ operand s') :
    BuiltBetween source s (signed source maxDepth x operand) s' := by
  refine BuildsWithin.bind (h.mono hspan.reaches (.refl _) fun _ => id) fun b hb => ?_
  refine buildsWithin_nest ?_
  exact between_iff.2 ⟨hspan.combine (hb _ .self),
    List.forall_mem_singleton.2 (hb.widen hspan.reaches (.refl _))⟩

theorem builtBetween_joined {op : InfixOp} {x y : Build Built} (hx : BuiltBetween source s x s₁)
    (hy : BuiltBetween source s₁ y s') :
    BuiltBetween source s (joined source maxDepth op x y) s' := by
  refine BuildsWithin.bind (hx.mono (.refl _) hy.reaches fun _ => id) fun a ha => ?_
  refine BuildsWithin.bind (hy.mono hx.reaches (.refl _) fun _ => id) fun b hb => ?_
  refine buildsWithin_nest ?_
  rw [between_iff, span_infixNode, parts_infixNode]
  exact ⟨(ha _ .self).combine (hb _ .self), List.forall_mem_cons.2
    ⟨ha.widen (.refl _) hy.reaches, List.forall_mem_singleton.2 (hb.widen hx.reaches (.refl _))⟩⟩

theorem between_of_inSigns {signs : List Sign} {run : Nat} {span : Span}
    (h : SignsBetween s signs s') (hspan : (longRun?.inSigns maxDepth run signs).2 = some span) :
    span.Between s s' := by
  induction h generalizing run with
  | nil => cases hspan
  | cons hx hsigns ih =>
      rw [longRun?.inSigns] at hspan
      split at hspan
      · cases hspan
        exact hx.widen (.refl _) hsigns.reaches
      · exact (ih hspan).widen hx.reaches (.refl _)

/-- Where the parts of a chain of several operands stand. -/
theorem between_of_link {signs : List Sign} {p : Primary} {op : InfixOp} {span : Span}
    {rest : Chain} (h : SpellsChain s (.link (.mk signs p) op span rest) s') :
    (∃ s₁, SignsBetween s signs s₁ ∧ s₁.Reaches s') ∧ span.Between s s' ∧
      ∃ s₂, s.Reaches s₂ ∧ SpellsChain s₂ rest s' := by
  cases h with
  | link hx hblanks hoperator hblanks' hrest =>
      have hfront := (SpellsOperand.reaches _ hx).trans hblanks.reaches
      have hback := hblanks'.reaches.trans (SpellsChain.reaches rest hrest)
      cases hx with
      | mk hsigns hp =>
          refine ⟨⟨_, hsigns.between, ?_⟩, ?_, _, ?_, hrest⟩
          · exact (SpellsPrimary.reaches p hp).trans
              (hblanks.reaches.trans (hoperator.reaches.trans hback))
          · exact (Span.between_self hoperator.reaches).widen hfront hback
          · exact hfront.trans (hoperator.reaches.trans hblanks'.reaches)

/-- The operator with which a run becomes too long is one of the chain. -/
theorem between_of_longRun? {c : Chain} {run : Nat} {span : Span} (h : SpellsChain s c s')
    (hspan : longRun? maxDepth run c = some span) : span.Between s s' := by
  fun_induction longRun? maxDepth run c generalizing s with
  | case1 run signs p =>
      cases h with
      | single hx =>
          cases hx with
          | mk hsigns hp =>
              exact (between_of_inSigns hsigns.between hspan).widen (.refl _)
                (SpellsPrimary.reaches p hp)
  | case2 run signs p op opSpan rest counted found hfound =>
      cases hspan
      obtain ⟨⟨s₁, hsigns, hs₁⟩, -⟩ := between_of_link h
      have hfound : (longRun?.inSigns maxDepth run signs).2 = some span := by rw [hfound]
      exact (between_of_inSigns hsigns hfound).widen (.refl _) hs₁
  | case3 =>
      cases hspan
      exact (between_of_link h).2.1
  | case4 _ _ _ _ _ _ _ _ ih | case5 _ _ _ _ _ _ _ _ _ ih =>
      obtain ⟨-, -, s₂, hs₂, hrest⟩ := between_of_link h
      exact (ih hrest hspan).widen hs₂ (.refl _)

/-- The operands of a chain, put together. -/
theorem builtBetween_assembled {c : Chain} (h : SpellsChain s c s')
    (hoperands : SequenceBetween (BuiltBetween source) s (operandsOf source maxDepth c) s') :
    BuiltBetween source s (assembled source maxDepth c (operandsOf source maxDepth c)) s' := by
  unfold assembled
  split
  · exact buildsWithin_refuse (between_of_longRun? h (by assumption))
  · exact grouped_between (P := BuiltBetween source) BuiltBetween.widen builtBetween_signed
      builtBetween_joined hoperands

mutual

/-- The operands of a chain stand where they are spelled.  The induction is on the chain. -/
theorem between_operandsOf : ∀ (c : Chain) {s s' : Cursor}, SpellsChain s c s' →
    SequenceBetween (BuiltBetween source) s (operandsOf source maxDepth c) s'
  | .single x, s, s', h => by
      cases h with
      | single hx => exact ⟨s', between_ofOperand x hx, .nil⟩
  | .link x op span rest, s, s', h => by
      cases h with
      | link hx hblanks hoperator hblanks' hrest =>
          obtain ⟨s₁, hfirst, hlinks⟩ := between_operandsOf rest hrest
          exact ⟨_, between_ofOperand x hx, .cons
            (hblanks.reaches.trans (hoperator.reaches.trans hblanks'.reaches)) hfirst hlinks⟩
  termination_by structural c => c

theorem between_ofOperand : ∀ (x : Operand) {s s' : Cursor}, SpellsOperand s x s' →
    SignedBetween (BuiltBetween source) s (ofOperand source maxDepth x) s'
  | .mk signs p, s, s', h => by
      cases h with
      | mk hsigns hp => exact ⟨_, hsigns.between, between_ofPrimary p hp⟩
  termination_by structural x => x

theorem between_ofPrimary : ∀ (p : Primary) {s s' : Cursor}, SpellsPrimary s p s' →
    BuiltBetween source s (ofPrimary source maxDepth p) s'
  | .group inner span, s, s', h => by
      have hself := Span.between_self (SpellsPrimary.reaches _ h)
      cases h with
      | group hopen hblanks hinner hblanks' hclose =>
          have hfront := hopen.reaches.trans hblanks.reaches
          have hback := hblanks'.reaches.trans hclose.reaches
          have hchain := builtBetween_assembled hinner (between_operandsOf inner hinner)
          -- The tree of a group takes the span of the parentheses; its parts stay inside.
          rw [ofPrimary]
          refine BuildsWithin.bind (hchain.widen hfront hback) fun b hb => buildsWithin_pure ?_
          rw [between_iff, span_withSpan, parts_withSpan]
          exact ⟨hself, (between_iff.1 hb).2⟩
  | .call name args span, s, s', h => by
      have hself := Span.between_self (SpellsPrimary.reaches _ h)
      cases h with
      | call _ hname hblanks hopen hblanks' hargs hblanks'' hclose =>
          have hfront := hname.reaches.trans (hblanks.reaches.trans
            (hopen.reaches.trans hblanks'.reaches))
          have hback := hblanks''.reaches.trans hclose.reaches
          have hall := between_ofChains args hargs.holdsChain
          rw [ofPrimary]
          refine BuildsWithin.bind (hall.mono hfront hback fun _ => id) fun r hr => ?_
          refine buildsWithin_nest ?_
          exact between_iff.2 ⟨hself, fun t ht => (hr t ht).widen hfront hback⟩
  | .leaf leaf span, s, s', h => by
      have hself := Span.between_self (SpellsPrimary.reaches _ h)
      cases h with
      | leaf =>
          rw [ofPrimary]
          exact (buildsWithin_ofLeaf hself).bind fun t ht => buildsWithin_pure ht
  termination_by structural p => p

theorem between_ofChains : ∀ (cs : List Chain) {s s' : Cursor}, (∀ c ∈ cs, HoldsChain s c s') →
    BuildsWithin source s s' (fun r => ∀ t ∈ r.1, t.Between s s') (ofChains source maxDepth cs)
  | [], s, s', _ => buildsWithin_pure nofun
  | c :: cs, s, s', h => by
      rw [List.forall_mem_cons] at h
      obtain ⟨⟨t, t', ht, hc, ht'⟩, hcs⟩ := h
      have hchain := builtBetween_assembled hc (between_operandsOf c hc)
      rw [ofChains]
      refine BuildsWithin.bind (hchain.widen ht ht') fun b hb => ?_
      refine (between_ofChains cs hcs).bind fun r hr => buildsWithin_pure ?_
      exact List.forall_mem_cons.2 ⟨hb, hr⟩
  termination_by structural cs => cs

end

end Building

/-! ### Reading -/

theorem eq_of_depth_lt {s : ScanState} {c : Char} (h : s.depth < (s.step c).depth) :
    c = '(' := by
  grind [ScanState.step]

/-- The place where a text nests too deeply is that of an opening parenthesis. -/
theorem deepParenthesis?_eq_some {maxDepth position found : Nat} {s : ScanState} {cs : List Char}
    (hs : s.depth ≤ maxDepth) (h : deepParenthesis? maxDepth s position cs = some found) :
    ∃ front back, cs = front ++ '(' :: back ∧ found = position + Span.bytesOf front := by
  induction cs generalizing s position with
  | nil => cases h
  | cons c cs ih =>
      rw [deepParenthesis?] at h
      split at h
      · rename_i hdeep
        obtain rfl := eq_of_depth_lt (Nat.lt_of_le_of_lt hs hdeep)
        cases h
        exact ⟨[], cs, rfl, rfl⟩
      · rename_i hdeep
        obtain ⟨front, back, rfl, rfl⟩ := ih (Nat.not_lt.1 hdeep) h
        exact ⟨c :: front, back, rfl, by rw [Span.bytesOf, Nat.add_assoc]⟩

theorem exists_builtBetween {maxDepth : Nat} {source : String} {c : Chain}
    (h : Spells source.toList c) :
    ∃ s', BuiltBetween source ⟨source.toList, 0⟩ (ofChain source maxDepth c) s' := by
  obtain ⟨s, s', -, hblanks, hc, -, -⟩ := h
  exact ⟨s', (builtBetween_assembled hc (between_operandsOf c hc)).widen hblanks.reaches (.refl _)⟩

/-- A text that is no formula is so because of something in it. -/
theorem fits_of_parse_eq_error {maxDepth : Nat} {source : String} {e : SyntaxError}
    (h : parse maxDepth source = .error e) : e.source = source ∧ e.span.Fits source := by
  unfold parse at h
  split at h
  · rename_i position hdeep
    cases h
    obtain ⟨front, back, hsource, rfl⟩ := deepParenthesis?_eq_some (Nat.zero_le _) hdeep
    have hfront : Cursor.Passes ⟨source.toList, 0⟩ front ⟨'(' :: back, 0 + Span.bytesOf front⟩ :=
      ⟨hsource, rfl⟩
    have hopen : Cursor.Passes ⟨'(' :: back, 0 + Span.bytesOf front⟩ ['(']
        ⟨back, 0 + Span.bytesOf front + 1⟩ := ⟨rfl, rfl⟩
    exact ⟨rfl, hfront.reaches.fits hopen.reaches⟩
  · split at h
    · rename_i attempts hattempts
      cases h
      exact ⟨rfl, SyntaxError.fits_ofAttempts (Recognize.standBehind_of_recognize hattempts)⟩
    · rename_i c hc
      obtain ⟨s', hbuilt⟩ := @exists_builtBetween maxDepth _ _ (spells_of_recognize hc)
      cases hb : ofChain source maxDepth c with
      | error e' =>
          rw [hb] at h
          cases h
          exact ⟨(hbuilt.error hb).1, (hbuilt.error hb).2.fits⟩
      | ok b =>
          rw [hb] at h
          cases h

/-- All nodes of a formula that is read stand in its text. -/
theorem fits_of_parse {maxDepth : Nat} {source : String} {t : Tree}
    (h : parse maxDepth source = .ok t) {node : Tree} (hnode : t.HasNode node) :
    node.span.Fits source := by
  unfold parse at h
  split at h
  · cases h
  · split at h
    · cases h
    · rename_i c hc
      obtain ⟨s', hbuilt⟩ := @exists_builtBetween maxDepth _ _ (spells_of_recognize hc)
      obtain ⟨b, hb, rfl⟩ := map_eq_ok_iff.1 h
      exact (hbuilt.ok hb node hnode).fits

end Tree

end RowFormula
