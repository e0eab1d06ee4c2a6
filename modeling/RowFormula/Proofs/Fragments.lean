/-
# The text under a node

Operators, operands and groups get their spans in three ways, and none of them is the span of a
rule of the grammar.  All the same every node stands at a text that spells it: the node's own
operands and operators are a chain, and the chain starts where the span does and ends where the
span ends.  Its parts stand one behind the other in that text.  So the text under a node, which
is recognised by `recognize_of_spells` and built by `parse_of_reads`, gives the node back.
-/

import RowFormula.Proofs.Building
import RowFormula.Proofs.Meaning

namespace RowFormula

/-! ### Texts under spans -/

namespace Span

theorem takeBytes?_bytesOf (cs rest : List Char) :
    takeBytes? (bytesOf cs) (cs ++ rest) = some cs := by
  induction cs with
  | nil => cases rest <;> rfl
  | cons c cs ih =>
      rw [List.cons_append, bytesOf, takeBytes?, if_pos (Nat.le_add_right _ _),
        Nat.add_sub_cancel_left, ih]
      · rfl
      · have := c.utf8Size_pos
        omega

end Span

namespace Grammar

open Cursor (Passes Reaches)
open Recognize (isBlank)

namespace Cursor

theorem Reaches.position_le {s s' : Cursor} (h : s.Reaches s') : s.position ≤ s'.position := by
  obtain ⟨cs, -, hposition⟩ := h
  rw [hposition]
  exact Nat.le_add_right _ _

/-- The text between two cursors is the one under the span from one to the other. -/
theorem Reaches.textOf {source : String} {s s' : Cursor} {cs : List Char}
    (h : Reaches ⟨source.toList, 0⟩ s) (h' : s.Passes cs s') :
    Span.textOf ⟨s.position, s'.position⟩ source = String.ofList cs := by
  obtain ⟨front, hfront, hposition⟩ := h
  have hstart : s.position = Span.bytesOf front := by rw [hposition, Nat.zero_add]
  have hlength : s'.position - s.position = Span.bytesOf cs := by rw [h'.2, Nat.add_sub_cancel_left]
  have hsource : source.toList = front ++ s.rest := hfront
  rw [Span.textOf, Span.chars?, if_pos h'.reaches.position_le, hlength, hstart, hsource,
    Span.dropBytes?_bytesOf, Option.bind_some, h'.1, Span.takeBytes?_bytesOf, Option.getD_some]

/-- There is no blank behind the cursor. -/
def OnToken (s : Cursor) : Prop := ∀ c ∈ s.rest.head?, isBlank c = false

end Cursor

open Cursor (OnToken)

/-! ### Parts of chains -/

section Parts

variable {source : String} {s s' : Cursor}

theorem PassesBlanks.eq_of_onToken (h : PassesBlanks s s') (hs : s.OnToken) : s = s' := by
  obtain ⟨gap, hgap, hrest, hposition⟩ := h
  cases gap with
  | nil =>
      obtain ⟨rest, position⟩ := s
      obtain ⟨rest', position'⟩ := s'
      obtain rfl : rest = rest' := hrest
      obtain rfl : position' = position := hposition
      rfl
  | cons c gap =>
      have hc : c ∈ s.rest.head? := by rw [hrest]; rfl
      exact absurd (hgap c List.mem_cons_self) (by rw [hs c hc]; exact Bool.false_ne_true)

theorem onToken_of_opens {cs : List Char} (h : s.Passes cs s') (hcs : Opens opensOperand cs) :
    s.OnToken := by
  intro c hc
  rw [h.1] at hc
  exact hcs.not_blank c hc

theorem SpellsPrimary.onToken {p : Primary} (h : SpellsPrimary s p s') : s.OnToken := by
  obtain ⟨cs, hpasses, htaken⟩ := h.taken
  exact onToken_of_opens hpasses htaken.opens.operand

theorem PassesOperator.onToken {op : UnaryOp} (h : PassesOperator op.text s s') : s.OnToken := by
  obtain ⟨s₁, htext, -⟩ := h
  refine onToken_of_opens htext ?_
  cases op <;> exact opens_cons rfl

/-- Blanks in front of an operand do not belong to it. -/
theorem SpellsOperand.trim {x : Operand} (h : SpellsOperand s x s') :
    ∃ u, PassesBlanks s u ∧ u.OnToken ∧ SpellsOperand u x s' := by
  cases h with
  | mk hsigns hp =>
      cases hsigns with
      | nil hblanks => exact ⟨_, hblanks, hp.onToken, .mk (.nil (.refl _)) hp⟩
      | cons hblanks hoperator hmore =>
          exact ⟨_, hblanks, hoperator.onToken, .mk (.cons (.refl _) hoperator hmore) hp⟩

theorem SpellsChain.trim {c : Chain} (h : SpellsChain s c s') :
    ∃ u, PassesBlanks s u ∧ u.OnToken ∧ SpellsChain u c s' := by
  cases h with
  | single hx =>
      obtain ⟨u, hblanks, hu, hx⟩ := hx.trim
      exact ⟨u, hblanks, hu, .single hx⟩
  | link hx hblanks hoperator hblanks' hrest =>
      obtain ⟨u, hu, htoken, hx⟩ := hx.trim
      exact ⟨u, hu, htoken, .link hx hblanks hoperator hblanks' hrest⟩

/-- The predicate holds of all operands of the chain, without their signs. -/
def Chain.AllPrimaries (P : Primary → Prop) : Chain → Prop
  | .single (.mk _ p) => P p
  | .link (.mk _ p) _ _ rest => P p ∧ AllPrimaries P rest

variable {P : Primary → Prop}

theorem SpellsOperand.of_sign {sign : Sign} {signs : List Sign} {p : Primary} (hs : s.OnToken)
    (h : SpellsOperand s (.mk (sign :: signs) p) s') :
    ∃ s₁, s.Reaches s₁ ∧ sign.span = ⟨s.position, s₁.position⟩ ∧
      SpellsOperand s₁ (.mk signs p) s' := by
  cases h with
  | mk hsigns hp =>
      cases hsigns with
      | cons hblanks hoperator hmore =>
          obtain rfl := hblanks.eq_of_onToken hs
          exact ⟨_, hoperator.reaches, rfl, .mk hmore hp⟩

/-- Without its first sign a chain is a chain, too. -/
theorem SpellsChain.of_sign {c : Chain} {sign : Sign} {signs : List Sign} {x : Tree}
    {links : List (Link Tree)} (hs : s.OnToken) (h : SpellsChain s c s')
    (hreads : Tree.ReadsOperands source c ⟨⟨sign :: signs, x⟩, links⟩) (hall : c.AllPrimaries P) :
    ∃ s₁ c', s.Reaches s₁ ∧ sign.span = ⟨s.position, s₁.position⟩ ∧ SpellsChain s₁ c' s' ∧
      Tree.ReadsOperands source c' ⟨⟨signs, x⟩, links⟩ ∧ c'.AllPrimaries P := by
  cases hreads with
  | single hx =>
      cases h with
      | single hoperand =>
          obtain ⟨s₁, hreaches, hspan, hoperand⟩ := hoperand.of_sign hs
          exact ⟨s₁, _, hreaches, hspan, .single hoperand, .single hx, hall⟩
  | link hx hrest =>
      cases h with
      | link hoperand hblanks hoperator hblanks' hspells =>
          obtain ⟨s₁, hreaches, hspan, hoperand⟩ := hoperand.of_sign hs
          exact ⟨s₁, _, hreaches, hspan, .link hoperand hblanks hoperator hblanks' hspells,
            .link hx hrest, hall⟩

/-- The two sides of an operator are chains. -/
theorem SpellsChain.of_append {c : Chain} {x : Signed Tree} {xs ys : List (Link Tree)}
    {op : InfixOp} {y : Signed Tree} (h : SpellsChain s c s')
    (hreads : Tree.ReadsOperands source c ⟨x, xs ++ (op, y) :: ys⟩) (hall : c.AllPrimaries P) :
    ∃ c₁ c₂ s₁ s₂, (SpellsChain s c₁ s₁ ∧ Tree.ReadsOperands source c₁ ⟨x, xs⟩ ∧
        c₁.AllPrimaries P) ∧ s₁.Reaches s₂ ∧
      SpellsChain s₂ c₂ s' ∧ Tree.ReadsOperands source c₂ ⟨y, ys⟩ ∧ c₂.AllPrimaries P := by
  induction xs generalizing s c x with
  | nil =>
      cases hreads with
      | link hx hrest =>
          cases h with
          | link hoperand hblanks hoperator hblanks' hspells =>
              exact ⟨_, _, _, _, ⟨.single hoperand, .single hx, hall.1⟩,
                hblanks.reaches.trans (hoperator.reaches.trans hblanks'.reaches), hspells, hrest,
                hall.2⟩
  | cons link xs ih =>
      generalize hlinks : link :: xs ++ (op, y) :: ys = links at hreads
      cases hreads with
      | single => cases hlinks
      | @link _ _ _ _ rest _ later hx hrest =>
          obtain ⟨rfl, hxs⟩ : link = _ ∧ xs ++ (op, y) :: ys = later.links := List.cons.inj hlinks
          cases h with
          | link hoperand hblanks hoperator hblanks' hspells =>
              have hrest' : Tree.ReadsOperands source rest ⟨later.first, xs ++ (op, y) :: ys⟩ := by
                rw [hxs]
                exact hrest
              obtain ⟨c₁, c₂, s₁, s₂, ⟨hspells₁, hreads₁, hall₁⟩, hreaches, hright⟩ :=
                ih hspells hrest' hall.2
              exact ⟨_, c₂, s₁, s₂, ⟨.link hoperand hblanks hoperator hblanks' hspells₁,
                .link hx hreads₁, hall.1, hall₁⟩, hreaches, hright⟩

end Parts

end Grammar

namespace Tree

open Grammar
open Grammar.Cursor (Reaches OnToken)

/-! ### Where nodes stand -/

/-- The trees stand one behind the other. -/
inductive InOrder : Cursor → List Tree → Cursor → Prop
  | nil {s s' : Cursor} : s.Reaches s' → InOrder s [] s'
  | cons {s s₁ s' : Cursor} {t : Tree} {ts : List Tree} :
      t.span.Between s s₁ → InOrder s₁ ts s' → InOrder s (t :: ts) s'

/-- The text between two cursors spells the node, and the parts of the node stand in it one
behind the other. -/
structure StandsAt (source : String) (t : Tree) (s s' : Cursor) : Prop where
  span_eq : t.span = ⟨s.position, s'.position⟩
  parts_inOrder : InOrder s t.parts s'
  spelled : ∃ c, SpellsChain s c s' ∧ ReadsChain source c t

/-- All nodes of the tree stand between two cursors. -/
def AllStand (source : String) (t : Tree) (s s' : Cursor) : Prop :=
  ∀ node, t.HasNode node → ∃ u u', s.Reaches u ∧ u'.Reaches s' ∧ StandsAt source node u u'

/-- The tree stands at the text between the cursors, and so do all its nodes in that text. -/
def StandsWith (source : String) (t : Tree) (s s' : Cursor) : Prop :=
  StandsAt source t s s' ∧ ∀ part ∈ t.parts, AllStand source part s s'

section Standing

variable {source : String} {s s₁ s₂ s' : Cursor} {t : Tree} {ts : List Tree}

theorem InOrder.reaches (h : InOrder s ts s') : s.Reaches s' := by
  induction h with
  | nil h => exact h
  | cons hspan _ ih => exact hspan.reaches.trans ih

theorem InOrder.widen (hs : s.Reaches s₁) (h : InOrder s₁ ts s₂) (hs' : s₂.Reaches s') :
    InOrder s ts s' := by
  induction h generalizing s with
  | nil h => exact .nil (hs.trans (h.trans hs'))
  | cons hspan hts ih => exact .cons (hspan.widen hs (.refl _)) (ih (.refl _) hs')

theorem Span.Between.bounds {span : Span} (h : span.Between s s') :
    s.position ≤ span.start ∧ span.stop ≤ s'.position := by
  obtain ⟨t, t', hs, -, hs', rfl⟩ := h
  exact ⟨hs.position_le, hs'.position_le⟩

theorem InOrder.bounds (h : InOrder s ts s') :
    ∀ t ∈ ts, s.position ≤ t.span.start ∧ t.span.stop ≤ s'.position := by
  induction h with
  | nil => exact nofun
  | cons hspan hts ih =>
      have hspan' := Span.Between.bounds hspan
      refine List.forall_mem_cons.2 ⟨⟨hspan'.1, ?_⟩, fun t ht => ⟨?_, (ih t ht).2⟩⟩
      · exact Nat.le_trans hspan'.2 hts.reaches.position_le
      · exact Nat.le_trans hspan.reaches.position_le (ih t ht).1

theorem InOrder.pairwise (h : InOrder s ts s') :
    ts.Pairwise fun a b => a.span.stop ≤ b.span.start := by
  induction h with
  | nil => exact .nil
  | cons hspan hts ih =>
      exact .cons (fun t ht => Nat.le_trans (Span.Between.bounds hspan).2 (hts.bounds t ht).1) ih

theorem StandsAt.reaches (h : StandsAt source t s s') : s.Reaches s' := by
  obtain ⟨c, hc, -⟩ := h.spelled
  exact hc.reaches

theorem StandsAt.between (h : StandsAt source t s s') : t.span.Between s s' := by
  rw [h.span_eq]
  exact Span.between_self h.reaches

theorem AllStand.widen (hs : s.Reaches s₁) (h : AllStand source t s₁ s₂) (hs' : s₂.Reaches s') :
    AllStand source t s s' := by
  intro node hnode
  obtain ⟨u, u', hu, hu', hstands⟩ := h node hnode
  exact ⟨u, u', hs.trans hu, hu'.trans hs', hstands⟩

theorem StandsWith.allStand (h : StandsWith source t s s') : AllStand source t s s' :=
  forall_hasNode_iff.2 ⟨⟨s, s', .refl s, .refl s', h.1⟩, h.2⟩

/-- An operand stands where it is spelled. -/
def PrimaryStands (source : String) (p : Primary) : Prop :=
  ∀ s s' x, SpellsPrimary s p s' → ReadsPrimary source p x → StandsWith source x s s'

/-- The operators of a chain stand with their operands.  The induction is on the grouping: a sign
takes the text from itself on, and an operator the texts on both of its sides. -/
theorem standsWith_of_proper {u : Skeleton Tree} (hu : u.Proper) {c : Chain} (hs : s.OnToken)
    (h : SpellsChain s c s') (hreads : ReadsOperands source c u.sequence)
    (hall : c.AllPrimaries (PrimaryStands source)) :
    StandsWith source (u.fold signedTree joinedTree) s s' := by
  induction hu generalizing c s s' with
  | operand =>
      cases hreads with
      | single hx =>
          cases h with
          | single hoperand =>
              cases hoperand with
              | mk hsigns hp =>
                  cases hsigns with
                  | nil hblanks =>
                      obtain rfl := hblanks.eq_of_onToken hs
                      exact hall _ _ _ hp hx
  | @signed sign x hlevel hx ih =>
      obtain ⟨s₁, c', hreaches, hspan, hspells, hreads', hall'⟩ := h.of_sign hs hreads hall
      obtain ⟨v, hblanks, hv, hspells'⟩ := hspells.trim
      have hstands := ih hv hspells' hreads' hall'
      have hfront := hreaches.trans hblanks.reaches
      refine ⟨⟨?_, ?_, c, h, .intro hreads (Skeleton.Proper.signed hlevel hx).loosest⟩, ?_⟩
      · rw [Skeleton.fold, signedTree, span, hspan, hstands.1.span_eq]
        rfl
      · exact .cons (hstands.1.between.widen hfront (.refl _)) (.nil (.refl _))
      · exact List.forall_mem_singleton.2 (hstands.allStand.widen hfront (.refl _))
  | @joined op x y hxlevel hylevel hx hy ihx ihy =>
      obtain ⟨c₁, c₂, s₁, s₂, ⟨hspells₁, hreads₁, hall₁⟩, hreaches, hspells₂, hreads₂, hall₂⟩ :=
        h.of_append hreads hall
      obtain ⟨v, hblanks, hv, hspells₂'⟩ := hspells₂.trim
      have hleft := ihx hs hspells₁ hreads₁ hall₁
      have hright := ihy hv hspells₂' hreads₂ hall₂
      have hmiddle := hreaches.trans hblanks.reaches
      have hparts : ((Skeleton.joined op x y).fold signedTree joinedTree).parts =
          [x.fold signedTree joinedTree, y.fold signedTree joinedTree] := by
        rw [Skeleton.fold, joinedTree, parts_infixNode]
      refine ⟨⟨?_, ?_, c, h,
        .intro hreads (Skeleton.Proper.joined hxlevel hylevel hx hy).loosest⟩, ?_⟩
      · rw [Skeleton.fold, joinedTree, span_infixNode, hleft.1.span_eq, hright.1.span_eq]
        rfl
      · rw [hparts]
        exact .cons hleft.1.between (.cons (hright.1.between.widen hmiddle (.refl _))
          (.nil (.refl _)))
      · rw [hparts, List.forall_mem_cons, List.forall_mem_singleton]
        exact ⟨hleft.allStand.widen (.refl _) (hmiddle.trans hright.1.reaches),
          hright.allStand.widen (hleft.1.reaches.trans hmiddle) (.refl _)⟩

/-- A chain of which all operands stand where they are spelled stands behind its blanks. -/
theorem exists_standsWith {c : Chain} (h : SpellsChain s c s') (hreads : ReadsChain source c t)
    (hall : c.AllPrimaries (PrimaryStands source)) :
    ∃ u, s.Reaches u ∧ StandsWith source t u s' := by
  cases hreads with
  | intro hreads hlayered =>
      obtain ⟨u, hblanks, hu, hspells⟩ := h.trim
      exact ⟨u, hblanks.reaches, standsWith_of_proper hlayered.proper.2 hu hspells hreads hall⟩

/-- A tree and those behind it stand in order if the first is spelled where it should. -/
theorem inOrder_cons {c : Chain} {x : Tree} {xs : List Tree} {u v : Cursor} (hfront : Reaches s u)
    (h : SpellsChain u c v) (hreads : ReadsChain source c x)
    (hall : c.AllPrimaries (PrimaryStands source))
    (hmore : InOrder v xs s' ∧ ∀ y ∈ xs, AllStand source y v s') :
    InOrder s (x :: xs) s' ∧ ∀ y ∈ x :: xs, AllStand source y s s' := by
  obtain ⟨horder, hbehind⟩ := hmore
  obtain ⟨w, hw, hstands⟩ := exists_standsWith h hreads hall
  have hbefore := hfront.trans hw
  refine ⟨.cons (hstands.1.between.widen hbefore (.refl _)) horder, ?_⟩
  refine List.forall_mem_cons.2 ⟨hstands.allStand.widen hbefore horder.reaches, ?_⟩
  exact fun y hy => (hbehind y hy).widen (hbefore.trans hstands.1.reaches) (.refl _)

theorem inOrder_of_more {cs : List Chain} {xs : List Tree} (h : SpellsMore s cs s')
    (hreads : ReadsAll source cs xs) (hall : ∀ c ∈ cs, c.AllPrimaries (PrimaryStands source)) :
    InOrder s xs s' ∧ ∀ x ∈ xs, AllStand source x s s' := by
  induction cs generalizing s xs with
  | nil =>
      cases hreads
      cases h
      exact ⟨.nil (.refl _), List.forall_mem_nil _⟩
  | cons c cs ih =>
      cases hreads with
      | cons hx hxs =>
          cases h with
          | cons hblanks hcomma hblanks' hc hmore =>
              rw [List.forall_mem_cons] at hall
              have hfront := hblanks.reaches.trans (hcomma.reaches.trans hblanks'.reaches)
              exact inOrder_cons hfront hc hx hall.1 (ih hmore hxs hall.2)

theorem inOrder_of_arguments {cs : List Chain} {xs : List Tree} (h : SpellsArguments s cs s')
    (hreads : ReadsAll source cs xs) (hall : ∀ c ∈ cs, c.AllPrimaries (PrimaryStands source)) :
    InOrder s xs s' ∧ ∀ x ∈ xs, AllStand source x s s' := by
  cases h with
  | none =>
      cases hreads
      exact ⟨.nil (.refl _), List.forall_mem_nil _⟩
  | some hc hmore =>
      cases hreads with
      | cons hx hxs =>
          rw [List.forall_mem_cons] at hall
          exact inOrder_cons (.refl s) hc hx hall.1 (inOrder_of_more hmore hxs hall.2)

mutual

theorem allPrimaries_stand : ∀ c : Chain, c.AllPrimaries (PrimaryStands source)
  | .single (.mk _ p) => primary_stands p
  | .link (.mk _ p) _ _ rest => ⟨primary_stands p, allPrimaries_stand rest⟩
  termination_by structural c => c

/-- Every operand stands where it is spelled. -/
theorem primary_stands : ∀ p : Primary, PrimaryStands source p
  | .group inner span => by
      intro s s' x h hreads
      cases hreads with
      | @group _ _ y hy =>
          have hself := readsChain_bare (@ReadsPrimary.group source inner span y hy)
          have hspelled := h
          cases h with
          | group hopen hblanks hinner hblanks' hclose =>
              obtain ⟨u, hu, hstands⟩ := exists_standsWith hinner hy (allPrimaries_stand inner)
              have hfront := hopen.reaches.trans (hblanks.reaches.trans hu)
              have hback := hblanks'.reaches.trans hclose.reaches
              -- The group takes the place of what it holds, which stays inside with all its parts.
              refine ⟨⟨span_withSpan _ _, ?_, _, .single (.mk (.nil (.refl s)) hspelled), hself⟩, ?_⟩
              · rw [parts_withSpan]
                exact hstands.1.parts_inOrder.widen hfront hback
              · rw [parts_withSpan]
                exact fun part hpart => (hstands.2 part hpart).widen hfront hback
  | .call name args span => by
      intro s s' x h hreads
      cases hreads with
      | @call _ _ _ xs hxs =>
          have hself := readsChain_bare (@ReadsPrimary.call source name args span xs hxs)
          have hspelled := h
          cases h with
          | call _ hname hblanks hopen hblanks' hargs hblanks'' hclose =>
              obtain ⟨horder, hall⟩ := inOrder_of_arguments hargs hxs (all_allPrimaries_stand args)
              have hfront := hname.reaches.trans (hblanks.reaches.trans
                (hopen.reaches.trans hblanks'.reaches))
              have hback := hblanks''.reaches.trans hclose.reaches
              exact ⟨⟨rfl, horder.widen hfront hback, _,
                .single (.mk (.nil (.refl s)) hspelled), hself⟩,
                fun part hpart => (hall part hpart).widen hfront hback⟩
  | .leaf leaf span => by
      intro s s' x h hreads
      cases hreads with
      | leaf hx =>
          have hself := readsChain_bare (ReadsPrimary.leaf hx)
          obtain ⟨hparts, hspan⟩ := ofLeaf_eq_ok hx
          have hspelled := h
          have hreaches := SpellsPrimary.reaches _ h
          cases h with
          | leaf =>
              refine ⟨⟨hspan, ?_, _, .single (.mk (.nil (.refl s)) hspelled), hself⟩, ?_⟩
              · rw [hparts]
                exact .nil hreaches
              · rw [hparts]
                exact nofun
  termination_by structural p => p

theorem all_allPrimaries_stand : ∀ cs : List Chain,
    ∀ c ∈ cs, c.AllPrimaries (PrimaryStands source)
  | [] => nofun
  | c :: cs => List.forall_mem_cons.2 ⟨allPrimaries_stand c, all_allPrimaries_stand cs⟩
  termination_by structural cs => cs

end

/-- Every node of a text that is read stands in it. -/
theorem standsAt_of_parse {maxDepth : Nat} (h : parse maxDepth source = .ok t) {node : Tree}
    (hnode : t.HasNode node) :
    ∃ u u', Reaches ⟨source.toList, 0⟩ u ∧ StandsAt source node u u' := by
  obtain ⟨c, hc, hreads⟩ := exists_reads_of_parse h
  obtain ⟨s, s', _, hblanks, hspells, -, -⟩ := spells_of_recognize hc
  obtain ⟨v, hv, hstands⟩ := exists_standsWith hspells hreads (allPrimaries_stand c)
  obtain ⟨u, u', hu, -, hat⟩ := hstands.allStand node hnode
  exact ⟨u, u', hblanks.reaches.trans (hv.trans hu), hat⟩

/-- The text at which a node stands is read as the node, if the limit suffices. -/
theorem StandsAt.parse_text (h : StandsAt source t s s')
    (hs : Reaches ⟨source.toList, 0⟩ s) :
    ∃ limit, ∀ maxDepth, limit ≤ maxDepth → ∃ u, parse maxDepth (t.span.textOf source) = .ok u ∧
      u.withoutSpans = t.withoutSpans := by
  obtain ⟨c, hspells, hreads⟩ := h.spelled
  obtain ⟨gap, cs, hgap, hpasses, htaken⟩ := hspells.taken
  obtain ⟨c', hc', hsame⟩ := @ChainTaken.recognize c cs gap [] htaken hgap (List.forall_mem_nil _)
  rw [List.append_nil] at hc'
  have htext : t.span.textOf source = String.ofList (gap ++ cs) := by
    rw [h.span_eq, hs.textOf hpasses]
  obtain ⟨u, hu, htree⟩ := @ReadsChain.exists_same source (String.ofList (gap ++ cs)) _ _ _ hreads
    hsame
  refine ⟨max (gap ++ cs).length t.height, fun maxDepth hlimit => ⟨u, ?_, htree⟩⟩
  have hheight := height_eq_of_withoutSpans_eq htree
  rw [htext]
  refine parse_of_reads (by rwa [String.toList_ofList]) hu
    (deepParenthesis?_of_length_le ?_) (by omega)
  rw [String.toList_ofList]
  omega

end Standing

/-- The spans of a formula are faithful.  Every node lies in the text on character boundaries and
holds its parts, which are disjoint and in the order of the text; and the text under the node by
itself is read as the node, as soon as the limit suffices for it. -/
theorem fragment_reads_back {maxDepth : Nat} {source : String} {t : Tree}
    (h : parse maxDepth source = .ok t) {node : Tree} (hnode : t.HasNode node) :
    node.span.Fits source ∧
      (∀ part ∈ node.parts,
        node.span.start ≤ part.span.start ∧ part.span.stop ≤ node.span.stop) ∧
      node.parts.Pairwise (fun a b => a.span.stop ≤ b.span.start) ∧
      ∃ limit, ∀ d, limit ≤ d → ∃ u, parse d (node.span.textOf source) = .ok u ∧
        u.sameShape node = true ∧ u.withoutSpans = node.withoutSpans := by
  obtain ⟨s, s', hs, hstands⟩ := standsAt_of_parse h hnode
  have hbounds := hstands.parts_inOrder.bounds
  have hfits := hs.fits hstands.reaches
  obtain ⟨limit, hlimit⟩ := hstands.parse_text hs
  refine ⟨by rwa [hstands.span_eq], by rwa [hstands.span_eq], hstands.parts_inOrder.pairwise,
    limit, fun d hd => ?_⟩
  obtain ⟨u, hu, htree⟩ := hlimit d hd
  exact ⟨u, hu, sameShape_of_withoutSpans_eq (hasNumerals_of_parse hu) htree, htree⟩

/-- The right side of a difference, which begins with a group and ends with a power that has a
sign. -/
theorem fragment_reads_back_of_product :
    ∃ t node, parse defaultMaxDepth "a - (b - c) * -d ^ 2" = .ok t ∧ t.HasNode node ∧
      node.span.textOf "a - (b - c) * -d ^ 2" = "(b - c) * -d ^ 2" ∧
      node.span.Fits "a - (b - c) * -d ^ 2" ∧
      node.parts.map span = [⟨4, 11⟩, ⟨14, 20⟩] ∧
      ∃ limit, ∀ d, limit ≤ d → ∃ u, parse d "(b - c) * -d ^ 2" = .ok u ∧
        u.sameShape node = true := by
  have hcheck : ((parse defaultMaxDepth "a - (b - c) * -d ^ 2").toOption.any fun t =>
      t.parts.any fun node => node.span == ⟨4, 20⟩ && node.parts.map span == [⟨4, 11⟩, ⟨14, 20⟩]) =
        true := by
    decide +kernel
  obtain ⟨t, ht, hpart⟩ := (Option.any_eq_true _ _).1 hcheck
  obtain ⟨node, hmem, hnode⟩ := List.any_eq_true.1 hpart
  rw [Bool.and_eq_true, beq_iff_eq, beq_iff_eq] at hnode
  have htext : node.span.textOf "a - (b - c) * -d ^ 2" = "(b - c) * -d ^ 2" := by
    rw [hnode.1]
    decide +kernel
  have hhas : t.HasNode node := .ofPart hmem .self
  obtain ⟨hfits, -, -, limit, hlimit⟩ := fragment_reads_back (toOption_eq_some_iff.1 ht) hhas
  refine ⟨t, node, toOption_eq_some_iff.1 ht, hhas, htext, hfits, hnode.2, limit, fun d hd => ?_⟩
  obtain ⟨u, hu, hshape, -⟩ := hlimit d hd
  exact ⟨u, by rwa [htext] at hu, hshape⟩

end Tree

end RowFormula
