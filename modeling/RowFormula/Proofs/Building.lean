/-
# Trees below the limit are built

`readsChain_of_assembled` says that a tree which is built is the one as which its chain reads.
This module supplies the converse: a chain that reads as a tree is built into it as soon as the
tree is not higher than the limit.  The check of runs of operators stands in nobody's way, because
a run makes the tree higher than the run is long.

Chains that differ in nothing but spans read as trees that differ in nothing but spans.
-/

import RowFormula.Proofs.Completeness
import RowFormula.Proofs.Depth
import RowFormula.Proofs.Nesting

namespace RowFormula

namespace Grammar

/-! ### Runs of operators -/

/-- The length of the longest run of operators that nest to the right, if a run of some length
stands before. -/
def longestRun {α : Type} (run : Nat) (x : Signed α) : List (Link α) → Nat
  | [] => run + x.signs.length
  | (op, next) :: links =>
    if op = InfixOp.power then longestRun (run + x.signs.length + 1) next links
    else max (run + x.signs.length) (longestRun 0 next links)

section Runs

variable {α : Type} {run : Nat} {x : Signed α} {links : List (Link α)}

theorem le_longestRun : run + x.signs.length ≤ longestRun run x links := by
  induction links generalizing run x with
  | nil => exact Nat.le_refl _
  | cons link links ih =>
      obtain ⟨op, next⟩ := link
      rw [longestRun]
      split
      · have := @ih (run + x.signs.length + 1) next
        omega
      · exact Nat.le_max_left _ _

theorem longestRun_sign {s : Sign} {signs : List Sign} {a : α} :
    longestRun run ⟨s :: signs, a⟩ links = longestRun (run + 1) ⟨signs, a⟩ links := by
  have hlength : run + (s :: signs).length = run + 1 + signs.length := by
    rw [List.length_cons]
    omega
  cases links with
  | nil => exact hlength
  | cons link links => rw [longestRun, longestRun, hlength]

/-- An operator other than a power ends the runs on its left. -/
theorem longestRun_append {op : InfixOp} (hop : op ≠ InfixOp.power) {y : Signed α}
    {more : List (Link α)} :
    longestRun run x (links ++ (op, y) :: more) =
      max (longestRun run x links) (longestRun 0 y more) := by
  induction links generalizing run x with
  | nil => simp only [List.nil_append, longestRun, if_neg hop]
  | cons link links ih =>
      obtain ⟨op', next⟩ := link
      rw [List.cons_append, longestRun, longestRun]
      split
      · exact ih
      · rw [ih, Nat.max_assoc]

end Runs

end Grammar

namespace Tree

open Grammar

theorem height_signedTree (s : Sign) (x : Tree) : (signedTree s x).height = x.height + 1 := by
  rw [signedTree, height]

theorem height_joinedTree (op : InfixOp) (x y : Tree) :
    (joinedTree op x y).height = max x.height y.height + 1 :=
  height_infixNode _ _ _ _

/-- A run nests as deeply as it is long. -/
theorem longestRun_lt_height {t : Skeleton Tree} (ht : t.Proper) (run : Nat) :
    longestRun run t.first t.links < run + (t.fold signedTree joinedTree).height := by
  induction ht generalizing run with
  | operand =>
      rw [Skeleton.fold]
      exact Nat.lt_add_of_pos_right (height_pos _)
  | @signed s x _ _ ih =>
      have := ih (run + 1)
      rw [Skeleton.first, Skeleton.links, longestRun_sign, Skeleton.fold, height_signedTree]
      change longestRun (run + 1) x.first x.links < _
      omega
  | @joined op x y hx _ _ _ ihx ihy =>
      rw [Skeleton.first, Skeleton.links, Skeleton.fold, height_joinedTree]
      by_cases hpower : op = InfixOp.power
      · subst hpower
        -- The base of a power is a bare operand, so the run goes on in the exponent.
        rw [leftLevel_power] at hx
        cases x with
        | signed => exact absurd hx (show ¬ 9 ≤ frontStrength by decide)
        | joined op' =>
            have := strength_eq_or op'
            rw [Skeleton.level] at hx
            omega
        | operand a =>
            have := ihy (run + 1)
            change longestRun run ⟨[], a⟩ ((.power, y.first) :: y.links) < _
            rw [longestRun, if_pos rfl]
            change longestRun (run + 1) y.first y.links < _
            omega
      · have := ihx run
        have := ihy 0
        rw [longestRun_append hpower]
        omega

section Building

variable {source : String} {maxDepth : Nat}

theorem inSigns_eq {run : Nat} {signs : List Sign} (h : run + signs.length ≤ maxDepth) :
    longRun?.inSigns maxDepth run signs = (run + signs.length, none) := by
  induction signs generalizing run with
  | nil => rfl
  | cons s signs ih =>
      rw [List.length_cons] at h ⊢
      rw [longRun?.inSigns, if_neg (by omega), ih (by omega), Nat.add_assoc, Nat.add_comm 1]

/-- No run is too long if the longest is not. -/
theorem longRun?_eq_none {c : Chain} {s : Sequence Tree} {run : Nat}
    (h : ReadsOperands source c s) (hle : longestRun run s.first s.links ≤ maxDepth) :
    longRun? maxDepth run c = none := by
  have hsigns : run + s.first.signs.length ≤ maxDepth := Nat.le_trans le_longestRun hle
  fun_induction longRun? maxDepth run c generalizing s with
  | case1 run signs p =>
      cases h with
      | single => rw [inSigns_eq hsigns]
  | case2 run signs p op opSpan rest counted found hfound =>
      cases h with
      | link =>
          rw [inSigns_eq hsigns] at hfound
          cases hfound
  | case3 run signs p opSpan rest counted hcounted hlong =>
      cases h with
      | link =>
          rw [inSigns_eq hsigns] at hcounted
          cases hcounted
          rw [longestRun, if_pos rfl] at hle
          have := Nat.le_trans le_longestRun hle
          omega
  | case4 run signs p opSpan rest counted hcounted hshort ih =>
      cases h with
      | link _ hrest =>
          rw [inSigns_eq hsigns] at hcounted
          cases hcounted
          rw [longestRun, if_pos rfl] at hle
          exact ih hrest hle (Nat.le_trans le_longestRun hle)
  | case5 run signs p op opSpan rest counted hcounted hpower ih =>
      cases h with
      | link _ hrest =>
          rw [longestRun, if_neg hpower] at hle
          have hrest' := Nat.le_trans (Nat.le_max_right _ _) hle
          exact ih hrest hrest' (Nat.le_trans le_longestRun hrest')

/-- No run of operators is too long if the tree is not too high. -/
theorem longRun?_of_reads {c : Chain} {t : Tree} (h : ReadsChain source c t)
    (hle : t.height ≤ maxDepth) : longRun? maxDepth 0 c = none := by
  cases h with
  | @intro _ u hu hlayered =>
      have hrun := longestRun_lt_height hlayered.proper.2 0
      exact longRun?_eq_none hu (show longestRun 0 u.first u.links ≤ maxDepth by omega)

/-! ### Building -/

theorem nest_of_le {t : Tree} {height : Nat} (h : height + 1 ≤ maxDepth) :
    nest source maxDepth t height = .ok ⟨t, height + 1⟩ :=
  if_neg (Nat.not_lt.2 h)

theorem signed_ok {s : Sign} {b : Built} (h : b.height + 1 ≤ maxDepth) :
    signed source maxDepth s (.ok b) = .ok ⟨signedTree s b.tree, b.height + 1⟩ :=
  nest_of_le h

theorem joined_ok {op : InfixOp} {a b : Built} (h : max a.height b.height + 1 ≤ maxDepth) :
    joined source maxDepth op (.ok a) (.ok b) =
      .ok ⟨joinedTree op a.tree b.tree, max a.height b.height + 1⟩ :=
  nest_of_le h

/-- What building finds if the tree is not too high. -/
def built (t : Tree) : Build Built := .ok ⟨t, t.height⟩

theorem fold_built {t : Skeleton Tree} (h : (t.fold signedTree joinedTree).height ≤ maxDepth) :
    (t.map built).fold (signed source maxDepth) (joined source maxDepth) =
      built (t.fold signedTree joinedTree) := by
  induction t with
  | operand => rfl
  | signed s x ih =>
      rw [Skeleton.fold, height_signedTree] at h
      rw [Skeleton.map, Skeleton.fold, ih (by omega), Skeleton.fold, built, signed_ok h, built,
        height_signedTree]
  | joined op x y ihx ihy =>
      rw [Skeleton.fold, height_joinedTree] at h
      rw [Skeleton.map, Skeleton.fold, ihx (by omega), ihy (by omega), Skeleton.fold, built, built,
        joined_ok h, built, height_joinedTree]

/-- No operand is higher than the whole. -/
theorem height_le_fold {t : Skeleton Tree} :
    ∀ x ∈ t.sequence.operands, x.height ≤ (t.fold signedTree joinedTree).height := by
  induction t with
  | operand x => exact List.forall_mem_singleton.2 (Nat.le_refl _)
  | signed s x ih =>
      rw [Skeleton.fold, height_signedTree]
      exact fun y hy => Nat.le_succ_of_le (ih y hy)
  | joined op x y ihx ihy =>
      rw [Skeleton.operands_joined, Skeleton.fold, height_joinedTree, List.forall_mem_append]
      refine ⟨fun z hz => ?_, fun z hz => ?_⟩
      · have := ihx z hz
        omega
      · have := ihy z hz
        omega

/-- A chain is built into the tree as which it reads if its operands are built into theirs. -/
theorem assembled_of_reads {c : Chain} {t : Tree} (h : ReadsChain source c t)
    (hle : t.height ≤ maxDepth)
    (hoperands : ∀ {s : Sequence Tree}, ReadsOperands source c s →
      (∀ x ∈ s.operands, x.height ≤ maxDepth) → operandsOf source maxDepth c = s.map built) :
    assembled source maxDepth c (operandsOf source maxDepth c) = built t := by
  have hnone := longRun?_of_reads h hle
  cases h with
  | @intro _ u hu hlayered =>
      rw [assembled, hnone, hoperands hu fun x hx => Nat.le_trans (height_le_fold x hx) hle,
        ← Skeleton.sequence_map]
      exact (grouped_sequence (layered_map.2 hlayered)).trans (fold_built hle)

mutual

theorem operandsOf_of_reads : ∀ (c : Chain) {s : Sequence Tree}, ReadsOperands source c s →
    (∀ x ∈ s.operands, x.height ≤ maxDepth) → operandsOf source maxDepth c = s.map built
  | .single (.mk signs p), s, h, hle => by
      cases h with
      | single hx =>
          rw [operandsOf, ofOperand, ofPrimary_of_reads p hx (hle _ (.head _))]
          rfl
  | .link (.mk signs p) op span rest, s, h, hle => by
      cases h with
      | link hx hrest =>
          have hlater := List.forall_mem_cons.1 hle
          rw [operandsOf, ofOperand, ofPrimary_of_reads p hx hlater.1,
            operandsOf_of_reads rest hrest hlater.2]
          rfl
  termination_by structural c => c

theorem ofPrimary_of_reads : ∀ (p : Primary) {x : Tree}, ReadsPrimary source p x →
    x.height ≤ maxDepth → ofPrimary source maxDepth p = built x
  | .group inner span, x, h, hle => by
      cases h with
      | @group _ _ y hy =>
          rw [height_withSpan] at hle
          rw [ofPrimary, assembled_of_reads hy hle (operandsOf_of_reads inner), built, built,
            height_withSpan]
          rfl
  | .call name args span, x, h, hle => by
      cases h with
      | call hxs =>
          rw [height] at hle
          rw [ofPrimary, ofChains_of_reads args hxs (by omega), built, height]
          exact nest_of_le hle
  | .leaf leaf span, x, h, _ => by
      cases h with
      | leaf hx =>
          rw [ofPrimary, hx, built, height_of_isLeaf (isLeaf_of_ofLeaf hx)]
          rfl
  termination_by structural p => p

theorem ofChains_of_reads : ∀ (cs : List Chain) {xs : List Tree}, ReadsAll source cs xs →
    heights xs ≤ maxDepth → ofChains source maxDepth cs = .ok (xs, heights xs)
  | [], xs, h, _ => by
      cases h
      rfl
  | c :: cs, xs, h, hle => by
      cases h with
      | cons hx hxs =>
          rw [heights] at hle
          rw [ofChains, assembled_of_reads hx (by omega) (operandsOf_of_reads c), built,
            ofChains_of_reads cs hxs (by omega), heights]
          rfl
  termination_by structural cs => cs

end

/-- A chain that reads as a tree is built into it if the tree is not too high. -/
theorem ofChain_of_reads {c : Chain} {t : Tree} (h : ReadsChain source c t)
    (hle : t.height ≤ maxDepth) : ofChain source maxDepth c = .ok ⟨t, t.height⟩ :=
  assembled_of_reads h hle (operandsOf_of_reads c)

/-- No text has more parentheses than characters. -/
theorem deepParenthesis?_of_length_le (h : source.toList.length ≤ maxDepth) :
    deepParenthesis? maxDepth {} 0 source.toList = none := by
  refine (deepParenthesis?_eq_none_iff (Nat.zero_le _)).2 ?_
  have hpeak := ScanState.peak_le_length {} source.toList
  exact Nat.le_trans hpeak (Nat.le_trans (Nat.le_of_eq (Nat.zero_add _)) h)

/-- A text is read if its chain reads as a tree and neither the parentheses nor the tree are
deeper than the limit. -/
theorem parse_of_reads {c : Chain} {t : Tree} (hc : recognize source.toList = .ok c)
    (h : ReadsChain source c t) (hscan : deepParenthesis? maxDepth {} 0 source.toList = none)
    (hle : t.height ≤ maxDepth) : parse maxDepth source = .ok t := by
  rw [parse, hscan, hc]
  simp only
  rw [ofChain_of_reads h hle]
  rfl

/-- Nothing is grouped around an operand that stands alone. -/
theorem assembled_bare {p : Primary} : assembled source maxDepth (.single (.mk [] p))
    (operandsOf source maxDepth (.single (.mk [] p))) = ofPrimary source maxDepth p := by
  rw [assembled, longRun?, longRun?.inSigns]
  exact grouped_sequence (t := .operand (ofPrimary source maxDepth p))
    (Skeleton.Proper.loosest .operand)

theorem readsChain_bare {p : Primary} {t : Tree} (h : ReadsPrimary source p t) :
    ReadsChain source (.single (.mk [] p)) t :=
  .intro (t := .operand t) (.single h) (Skeleton.Proper.loosest .operand)

end Building

/-! ### Trees up to spans -/

mutual

/-- The same tree with all spans at the start of the text. -/
def withoutSpans : Tree → Tree
  | integer x _ => integer x ⟨0, 0⟩
  | float x _ => float x ⟨0, 0⟩
  | text s _ => text s ⟨0, 0⟩
  | ident name _ => ident name ⟨0, 0⟩
  | attributeRef name _ => attributeRef name ⟨0, 0⟩
  | macroRef name _ => macroRef name ⟨0, 0⟩
  | unary op _ x => unary op ⟨0, 0⟩ (withoutSpans x)
  | arithmetic op _ x y => arithmetic op ⟨0, 0⟩ (withoutSpans x) (withoutSpans y)
  | comparison op _ x y => comparison op ⟨0, 0⟩ (withoutSpans x) (withoutSpans y)
  | logical op _ x y => logical op ⟨0, 0⟩ (withoutSpans x) (withoutSpans y)
  | call name _ args => call name ⟨0, 0⟩ (allWithoutSpans args)

def allWithoutSpans : List Tree → List Tree
  | [] => []
  | t :: ts => withoutSpans t :: allWithoutSpans ts

end

theorem withoutSpans_withSpan (t : Tree) (span : Span) :
    (t.withSpan span).withoutSpans = t.withoutSpans := by
  cases t <;> rfl

theorem withoutSpans_infixNode (op : InfixOp) (span : Span) (x y : Tree) :
    (infixNode op span x y).withoutSpans =
      infixNode op ⟨0, 0⟩ x.withoutSpans y.withoutSpans := by
  cases op <;> rfl

theorem height_withoutSpans (t : Tree) : t.withoutSpans.height = t.height := by
  induction t with
  | unary op span x ih => rw [withoutSpans, height, height, ih]
  | arithmetic op span x y ihx ihy | comparison op span x y ihx ihy | logical op span x y ihx ihy =>
      rw [withoutSpans, height, height, ihx, ihy]
  | call name span args ih =>
      rw [withoutSpans, height, height]
      congr 1
      induction args with
      | nil => rfl
      | cons arg args ihargs =>
          rw [List.forall_mem_cons] at ih
          rw [allWithoutSpans, heights, heights, ih.1, ihargs ih.2]
  | _ => rfl

theorem height_eq_of_withoutSpans_eq {t u : Tree} (h : t.withoutSpans = u.withoutSpans) :
    t.height = u.height := by
  rw [← height_withoutSpans, h, height_withoutSpans]

theorem withoutSpans_signedTree (s : Sign) (x : Tree) :
    (signedTree s x).withoutSpans = unary s.op ⟨0, 0⟩ x.withoutSpans := by
  rw [signedTree, withoutSpans]

theorem withoutSpans_joinedTree (op : InfixOp) (x y : Tree) :
    (joinedTree op x y).withoutSpans = infixNode op ⟨0, 0⟩ x.withoutSpans y.withoutSpans :=
  withoutSpans_infixNode _ _ _ _

/-- An operand with its signs, without spans. -/
def shapeOf (x : Signed Tree) : List UnaryOp × Tree := (x.signs.map Sign.op, x.operand.withoutSpans)

/-- A sequence of the same shape can be grouped in the same way. -/
theorem exists_regrouped {t : Skeleton Tree} {x : Signed Tree} {links : List (Link Tree)}
    (hx : shapeOf x = shapeOf t.first)
    (hlinks : links.map (Prod.map id shapeOf) = t.links.map (Prod.map id shapeOf)) :
    ∃ u : Skeleton Tree, u.sequence = ⟨x, links⟩ ∧ u.level = t.level ∧ (t.Proper → u.Proper) ∧
      (u.fold signedTree joinedTree).withoutSpans =
        (t.fold signedTree joinedTree).withoutSpans := by
  induction t generalizing x links with
  | operand a =>
      obtain ⟨signs, b⟩ := x
      obtain ⟨hsigns, hb⟩ := Prod.mk.inj hx
      obtain rfl := List.map_eq_nil_iff.1 hsigns
      obtain rfl := List.map_eq_nil_iff.1 hlinks
      exact ⟨.operand b, rfl, rfl, fun _ => .operand, hb⟩
  | signed s t ih =>
      obtain ⟨signs, b⟩ := x
      obtain ⟨hsigns, hb⟩ := Prod.mk.inj hx
      obtain ⟨s', signs, rfl, hs, hsigns⟩ := List.map_eq_cons_iff.1 hsigns
      obtain ⟨u, hsequence, hlevel, hproper, htree⟩ :=
        ih (x := ⟨signs, b⟩) (Prod.ext hsigns hb) hlinks
      refine ⟨.signed s' u, ?_, rfl, ?_, ?_⟩
      · obtain ⟨hfirst, hlinks⟩ := Sequence.mk.inj hsequence
        rw [Skeleton.sequence, Skeleton.first, Skeleton.links, hfirst, hlinks]
      · rintro (_ | ⟨h, ht⟩)
        exact .signed (hlevel ▸ h) (hproper ht)
      · rw [Skeleton.fold, Skeleton.fold, withoutSpans_signedTree, withoutSpans_signedTree, htree, hs]
  | joined op t₁ t₂ ih₁ ih₂ =>
      rw [Skeleton.links, List.map_append, List.map_cons] at hlinks
      obtain ⟨xs, rest, rfl, hxs, hrest⟩ := List.map_eq_append_iff.1 hlinks
      obtain ⟨⟨op', y⟩, ys, rfl, hlink, hys⟩ := List.map_eq_cons_iff.1 hrest
      obtain ⟨hop, hy⟩ := Prod.mk.inj hlink
      obtain rfl : op' = op := hop
      obtain ⟨u₁, hsequence₁, hlevel₁, hproper₁, htree₁⟩ := ih₁ hx hxs
      obtain ⟨u₂, hsequence₂, hlevel₂, hproper₂, htree₂⟩ := ih₂ hy hys
      obtain ⟨hfirst₁, hlinks₁⟩ := Sequence.mk.inj hsequence₁
      obtain ⟨hfirst₂, hlinks₂⟩ := Sequence.mk.inj hsequence₂
      refine ⟨.joined op' u₁ u₂, ?_, rfl, ?_, ?_⟩
      · rw [Skeleton.sequence, Skeleton.first, Skeleton.links, hfirst₁, hlinks₁, hfirst₂, hlinks₂]
      · rintro (_ | _ | ⟨h₁, h₂, hproper, hproper'⟩)
        exact .joined (hlevel₁ ▸ h₁) (hlevel₂ ▸ h₂) (hproper₁ hproper) (hproper₂ hproper')
      · rw [Skeleton.fold, Skeleton.fold, withoutSpans_joinedTree, withoutSpans_joinedTree, htree₁,
          htree₂]

section Same

variable {source other : String}

theorem ofLeaf_of_other {leaf : Leaf} {span span' : Span} {t : Tree}
    (h : ofLeaf source span leaf = .ok t) :
    ∃ t', ofLeaf other span' leaf = .ok t' ∧ t'.withoutSpans = t.withoutSpans := by
  have hnumber : ∀ {digits : List Char} {x : Float}, readNumber source digits span = .ok x →
      readNumber other digits span' = .ok x := by
    intro digits x hx
    unfold readNumber at hx ⊢
    dsimp only at hx ⊢
    split at hx
    · exact hx
    · cases hx
  cases leaf with
  | attributeRef | macroRef | ident =>
      cases h
      exact ⟨_, rfl, rfl⟩
  | float | integer =>
      obtain ⟨x, hx, h⟩ := bind_eq_ok_iff.1 h
      cases h
      exact ⟨_, bind_eq_ok_iff.2 ⟨x, hnumber hx, rfl⟩, rfl⟩
  | string content =>
      rw [ofLeaf] at h
      split at h
      · rename_i s hs
        cases h
        exact ⟨.text s span', by rw [ofLeaf, hs]; rfl, rfl⟩
      · cases h

/-- A chain of the same shape reads as a tree of the same shape if its operands do. -/
theorem ReadsChain.of_same {c c' : Chain} {t : Tree} (h : ReadsChain source c t)
    (hoperands : ∀ {s : Sequence Tree}, ReadsOperands source c s → ∃ s', ReadsOperands other c' s' ∧
      shapeOf s'.first = shapeOf s.first ∧
      s'.links.map (Prod.map id shapeOf) = s.links.map (Prod.map id shapeOf)) :
    ∃ t', ReadsChain other c' t' ∧ t'.withoutSpans = t.withoutSpans := by
  cases h with
  | intro hs hlayered =>
      obtain ⟨s', hs', hfirst, hlinks⟩ := hoperands hs
      obtain ⟨u, hsequence, hlevel, hproper, htree⟩ := exists_regrouped hfirst hlinks
      obtain ⟨hrank, ht⟩ := hlayered.proper
      rw [← hlevel] at hrank
      refine ⟨_, .intro (t := u) ?_ ((hproper ht).layered hrank), htree⟩
      rwa [hsequence]

mutual

theorem ReadsOperands.of_same : ∀ (c : Chain) {c' : Chain} {s : Sequence Tree}, SameChain c c' →
    ReadsOperands source c s → ∃ s', ReadsOperands other c' s' ∧
      shapeOf s'.first = shapeOf s.first ∧
      s'.links.map (Prod.map id shapeOf) = s.links.map (Prod.map id shapeOf)
  | .single (.mk signs p), c', s, hsame, h => by
      cases h with
      | single hx =>
          cases hsame with
          | single hsame =>
              cases hsame with
              | mk hsigns hp =>
                  obtain ⟨x', hx', htree⟩ := ReadsPrimary.of_same p hp hx
                  exact ⟨_, .single hx', Prod.ext hsigns.symm htree, rfl⟩
  | .link (.mk signs p) op span rest, c', s, hsame, h => by
      cases h with
      | link hx hrest =>
          cases hsame with
          | link hsame hsame' =>
              cases hsame with
              | mk hsigns hp =>
                  obtain ⟨x', hx', htree⟩ := ReadsPrimary.of_same p hp hx
                  obtain ⟨s', hs', hfirst, hlinks⟩ := ReadsOperands.of_same rest hsame' hrest
                  refine ⟨_, .link hx' hs', Prod.ext hsigns.symm htree, ?_⟩
                  rw [List.map_cons, List.map_cons, hlinks, Prod.map, Prod.map, hfirst]
  termination_by structural c => c

theorem ReadsPrimary.of_same : ∀ (p : Primary) {p' : Primary} {x : Tree}, SamePrimary p p' →
    ReadsPrimary source p x → ∃ x', ReadsPrimary other p' x' ∧ x'.withoutSpans = x.withoutSpans
  | .group inner span, p', x, hsame, h => by
      cases h with
      | group hx =>
          cases hsame with
          | group hsame =>
              obtain ⟨x', hx', htree⟩ := hx.of_same (ReadsOperands.of_same inner hsame)
              exact ⟨_, .group hx', by rw [withoutSpans_withSpan, withoutSpans_withSpan, htree]⟩
  | .call name args span, p', x, hsame, h => by
      cases h with
      | call hxs =>
          cases hsame with
          | call hsame =>
              obtain ⟨xs', hxs', htrees⟩ := ReadsAll.of_same args hsame hxs
              exact ⟨_, .call hxs', by rw [withoutSpans, withoutSpans, htrees]⟩
  | .leaf leaf span, p', x, hsame, h => by
      cases h with
      | leaf hx =>
          cases hsame with
          | leaf =>
              obtain ⟨x', hx', htree⟩ := ofLeaf_of_other hx
              exact ⟨x', .leaf hx', htree⟩
  termination_by structural p => p

theorem ReadsAll.of_same : ∀ (cs : List Chain) {cs' : List Chain} {xs : List Tree},
    SameChains cs cs' → ReadsAll source cs xs →
    ∃ xs', ReadsAll other cs' xs' ∧ allWithoutSpans xs' = allWithoutSpans xs
  | [], cs', xs, hsame, h => by
      cases h
      cases hsame
      exact ⟨[], .nil, rfl⟩
  | c :: cs, cs', xs, hsame, h => by
      cases h with
      | cons hx hxs =>
          cases hsame with
          | cons hc hcs =>
              obtain ⟨x', hx', htree⟩ := hx.of_same (ReadsOperands.of_same c hc)
              obtain ⟨xs', hxs', htrees⟩ := ReadsAll.of_same cs hcs hxs
              exact ⟨_, .cons hx' hxs', by rw [allWithoutSpans, allWithoutSpans, htree, htrees]⟩
  termination_by structural cs => cs

end

/-- Chains that differ in nothing but spans read as trees that differ in nothing but spans. -/
theorem ReadsChain.exists_same {c c' : Chain} {t : Tree} (h : ReadsChain source c t)
    (hsame : SameChain c c') : ∃ t', ReadsChain other c' t' ∧ t'.withoutSpans = t.withoutSpans :=
  h.of_same (ReadsOperands.of_same c hsame)

end Same

end Tree

end RowFormula
