/-
# Numbers in trees

Every number that stands in the tree of a text was spelled there, and so it is the number that
some numeral denotes.  In particular it has no sign.  Equality of trees compares numbers as
numbers; for trees that were read this is as good as identity.
-/

import RowFormula.Proofs.Magnitudes
import RowFormula.Proofs.Spans

namespace RowFormula

namespace Tree

open Grammar

/-- The node is not a number, or it is one that a numeral denotes. -/
def IsDenoted : Tree → Prop
  | integer x _ | float x _ => ∃ n : Numeral, n.denoted = x
  | _ => True

/-- Numbers that numerals denote are equal as numbers only if they are the same. -/
theorem eq_of_denoted {x y : Float} (hx : ∃ n : Numeral, n.denoted = x)
    (hy : ∃ n : Numeral, n.denoted = y) (h : (x == y) = true) : x = y := by
  obtain ⟨n, rfl⟩ := hx
  obtain ⟨m, rfl⟩ := hy
  have hunsigned (n : Numeral) : Number.Unsigned n.denoted := Number.unsigned_ofScientific _ _ _
  exact (hunsigned n).eq_of_beq (hunsigned m) h

theorem beq_self_of_denoted {x : Float} (hx : ∃ n : Numeral, n.denoted = x) :
    (x == x) = true := by
  obtain ⟨n, rfl⟩ := hx
  exact Number.ofScientific_beq_self _ _ _

/-- All numbers in the tree are denoted by numerals. -/
def HasNumerals (t : Tree) : Prop :=
  ∀ node, t.HasNode node → node.IsDenoted

section Reading

variable {source : String} {span : Span} {s s' : Cursor} {t : Tree}

theorem hasNumerals_iff :
    t.HasNumerals ↔ t.IsDenoted ∧ ∀ part ∈ t.parts, part.HasNumerals :=
  forall_hasNode_iff

theorem HasNumerals.of_mem_parts {part : Tree} (h : t.HasNumerals) (hpart : part ∈ t.parts) :
    part.HasNumerals :=
  (hasNumerals_iff.1 h).2 part hpart

theorem HasNumerals.operands {x y : Tree} (h : t.HasNumerals) (hparts : t.parts = [x, y]) :
    x.HasNumerals ∧ y.HasNumerals :=
  ⟨h.of_mem_parts (by simp [hparts]), h.of_mem_parts (by simp [hparts])⟩

theorem HasNumerals.withSpan (h : t.HasNumerals) (span : Span) : (t.withSpan span).HasNumerals := by
  obtain ⟨hself, hparts⟩ := hasNumerals_iff.1 h
  refine hasNumerals_iff.2 ⟨?_, (parts_withSpan span t).symm ▸ hparts⟩
  cases t <;> exact hself

theorem readNumber_eq_ok {cs : List Char} {x : Float} (hcs : IsDigits cs ∨ IsFloat cs)
    (h : readNumber source cs span = .ok x) : ∃ n : Numeral, n.denoted = x := by
  obtain ⟨n, rfl⟩ := exists_numeral hcs
  refine ⟨n, ?_⟩
  simp only [readNumber, n.read?_chars] at h
  exact Except.ok.inj h

theorem hasNumerals_of_ofLeaf {cs : List Char} {leaf : Leaf} (hcs : SpellsLeaf cs leaf)
    (h : ofLeaf source span leaf = .ok t) : t.HasNumerals := by
  refine hasNumerals_iff.2 ⟨?_, (ofLeaf_eq_ok h).1 ▸ nofun⟩
  cases hcs with
  | float hdigits =>
      obtain ⟨x, hx, h⟩ := bind_eq_ok_iff.1 h
      cases h
      exact readNumber_eq_ok (.inr hdigits) hx
  | integer hdigits =>
      obtain ⟨x, hx, h⟩ := bind_eq_ok_iff.1 h
      cases h
      exact readNumber_eq_ok (.inl hdigits) hx
  | attributeRef | macroRef | ident =>
      cases h
      trivial
  | string =>
      rw [ofLeaf] at h
      split at h
      · cases h
        trivial
      · cases h

theorem HasNumerals.joinedTree {x y : Tree} (op : InfixOp) (hx : x.HasNumerals)
    (hy : y.HasNumerals) : (joinedTree op x y).HasNumerals := by
  refine hasNumerals_iff.2 ⟨?_, ?_⟩
  · cases op <;> trivial
  · rw [Tree.joinedTree, parts_infixNode]
    exact List.forall_mem_cons.2 ⟨hx, List.forall_mem_singleton.2 hy⟩

/-- Operators bring no numbers with them. -/
theorem hasNumerals_of_readsChain {c : Chain} (h : ReadsChain source c t)
    (hoperands : ∀ {xs : Sequence Tree}, ReadsOperands source c xs →
      ∀ x ∈ xs.operands, x.HasNumerals) : t.HasNumerals := by
  cases h with
  | intro hs _ =>
      refine Skeleton.fold_induct (fun s x hx => ?_) (fun op x y hx hy => hx.joinedTree op hy)
        (hoperands hs)
      exact hasNumerals_iff.2 ⟨trivial, List.forall_mem_singleton.2 hx⟩

mutual

theorem hasNumerals_of_readsOperands : ∀ (c : Chain) {s s' : Cursor} {xs : Sequence Tree},
    SpellsChain s c s' → ReadsOperands source c xs → ∀ x ∈ xs.operands, x.HasNumerals
  | .single (.mk signs p), s, s', xs, hc, h => by
      cases h with
      | single hx =>
          cases hc with
          | single hp =>
              cases hp with
              | mk _ hp =>
                  exact List.forall_mem_singleton.2 (hasNumerals_of_readsPrimary p hp hx)
  | .link (.mk signs p) op span rest, s, s', xs, hc, h => by
      cases h with
      | link hx hrest =>
          cases hc with
          | link hp _ _ _ hc =>
              cases hp with
              | mk _ hp =>
                  exact List.forall_mem_cons.2 ⟨hasNumerals_of_readsPrimary p hp hx,
                    hasNumerals_of_readsOperands rest hc hrest⟩
  termination_by structural c => c

theorem hasNumerals_of_readsPrimary : ∀ (p : Primary) {s s' : Cursor} {x : Tree},
    SpellsPrimary s p s' → ReadsPrimary source p x → x.HasNumerals
  | .group inner span, s, s', x, hp, h => by
      cases h with
      | group hx =>
          cases hp with
          | group _ _ hc _ _ =>
              exact (hasNumerals_of_readsChain hx
                (hasNumerals_of_readsOperands inner hc)).withSpan _
  | .call name args span, s, s', x, hp, h => by
      cases h with
      | call hxs =>
          cases hp with
          | call _ _ _ _ _ hargs _ _ =>
              refine hasNumerals_iff.2 ⟨trivial, ?_⟩
              exact hasNumerals_of_readsAll args (fun c hc => hargs.holdsChain c hc) hxs
  | .leaf leaf span, s, s', x, hp, h => by
      cases h with
      | leaf hx =>
          cases hp with
          | leaf hcs _ => exact hasNumerals_of_ofLeaf hcs hx
  termination_by structural p => p

theorem hasNumerals_of_readsAll : ∀ (cs : List Chain) {s s' : Cursor} {xs : List Tree},
    (∀ c ∈ cs, HoldsChain s c s') → ReadsAll source cs xs → ∀ x ∈ xs, x.HasNumerals
  | [], s, s', xs, _, h => by
      cases h
      exact nofun
  | c :: cs, s, s', xs, hcs, h => by
      cases h with
      | cons hx hxs =>
          obtain ⟨⟨_, _, _, hc, _⟩, hcs⟩ := List.forall_mem_cons.1 hcs
          exact List.forall_mem_cons.2
            ⟨hasNumerals_of_readsChain hx (hasNumerals_of_readsOperands c hc),
              hasNumerals_of_readsAll cs hcs hxs⟩
  termination_by structural cs => cs

end

/-- All numbers in the tree of a text are denoted by numerals. -/
theorem hasNumerals_of_parse {maxDepth : Nat} (h : parse maxDepth source = .ok t) :
    t.HasNumerals := by
  obtain ⟨c, hc, hreads⟩ := exists_reads_of_parse h
  obtain ⟨_, _, _, _, hc, _, _⟩ := spells_of_recognize hc
  exact hasNumerals_of_readsChain hreads (hasNumerals_of_readsOperands c hc)

end Reading

end Tree

end RowFormula
