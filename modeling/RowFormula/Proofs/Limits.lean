/-
# The limit of parsing

Three checks share one limit: the scan for parentheses, the check of runs of operators and the
height that is counted while the tree is built.  The scan looks at nothing but the characters.
Of the other two this module shows that they amount to one: what the scan lets pass is read if
its tree is within the limit, and no run is too long in such a tree.

The module also compares two limits.  What is decided under one is decided in the same way under
every higher one, because a failure that has nothing to do with the limit is found in the same
place.  It does not say which of several failures is found first.
-/

import RowFormula.Proofs.Building
import RowFormula.Proofs.Operands

namespace RowFormula.Tree

open Grammar

/-! ### Trees within the limit -/

/-- A tree within a limit.  A single operand is within every limit. -/
def Fits (maxDepth : Nat) (t : Tree) : Prop := t.isLeaf = true ∨ t.height ≤ maxDepth

theorem isLeaf_infixNode (op : InfixOp) (span : Span) (x y : Tree) :
    (infixNode op span x y).isLeaf = false := by
  cases op <;> rfl

theorem isLeaf_withoutSpans (t : Tree) : t.withoutSpans.isLeaf = t.isLeaf := by
  cases t <;> rfl

theorem Fits.of_withoutSpans_eq {maxDepth : Nat} {t u : Tree} (h : t.Fits maxDepth)
    (hsame : u.withoutSpans = t.withoutSpans) : u.Fits maxDepth := by
  rw [Fits, ← isLeaf_withoutSpans, ← height_withoutSpans, hsame, isLeaf_withoutSpans,
    height_withoutSpans]
  exact h

section Exact

variable {source : String} {maxDepth : Nat} {c : Chain} {t : Tree}

/-- Only a chain without operators reads as a single operand. -/
theorem ReadsChain.of_isLeaf (h : ReadsChain source c t) (hleaf : t.isLeaf = true) :
    ∃ p, c = .single (.mk [] p) ∧ ReadsPrimary source p t := by
  cases h with
  | @intro _ u hoperands _ =>
      cases u with
      | operand x =>
          change ReadsOperands source c ⟨⟨[], x⟩, []⟩ at hoperands
          cases hoperands with
          | single hx => exact ⟨_, rfl, hx⟩
      | signed s x => cases hleaf
      | joined op x y =>
          rw [Skeleton.fold, joinedTree, isLeaf_infixNode] at hleaf
          cases hleaf

theorem ofPrimary_of_isLeaf (p : Primary) {x : Tree} (h : ReadsPrimary source p x)
    (hleaf : x.isLeaf = true) : ofPrimary source maxDepth p = built x := by
  induction p using Primary.induction generalizing x with
  | group inner span ih =>
      cases h with
      | @group _ _ y hy =>
          rw [isLeaf_withSpan] at hleaf
          obtain ⟨p, rfl, hp⟩ := hy.of_isLeaf hleaf
          rw [ofPrimary, assembled_bare, ih p (.head _) hp hleaf, built, built, height_withSpan]
          rfl
  | call name args span =>
      cases h
      cases hleaf
  | leaf leaf span =>
      cases h with
      | leaf hx =>
          rw [ofPrimary, hx, built, height_of_isLeaf hleaf]
          rfl

/-- A chain is built into the tree as which it reads if the tree is within the limit. -/
theorem ofChain_of_fits (h : ReadsChain source c t) (hfits : t.Fits maxDepth) :
    ofChain source maxDepth c = built t := by
  obtain hleaf | hle := hfits
  · obtain ⟨p, rfl, hp⟩ := h.of_isLeaf hleaf
    exact assembled_bare.trans (ofPrimary_of_isLeaf p hp hleaf)
  · exact ofChain_of_reads h hle

/-- No run of operators is too long in a tree within the limit. -/
theorem longRun?_of_fits (h : ReadsChain source c t) (hfits : t.Fits maxDepth) :
    longRun? maxDepth 0 c = none := by
  obtain hleaf | hle := hfits
  · obtain ⟨p, rfl, -⟩ := h.of_isLeaf hleaf
    rfl
  · exact longRun?_of_reads h hle

theorem parse_eq_ok_iff (hscan : deepParenthesis? maxDepth {} 0 source.toList = none) :
    parse maxDepth source = .ok t ↔
      ∃ c, recognize source.toList = .ok c ∧ ReadsChain source c t ∧ t.Fits maxDepth := by
  constructor
  · intro h
    obtain ⟨c, hc, hreads⟩ := exists_reads_of_parse h
    exact ⟨c, hc, hreads, isLeaf_or_height_le_of_parse h⟩
  · rintro ⟨c, hc, hreads, hfits⟩
    rw [parse, hscan, hc]
    simp only
    rw [ofChain_of_fits hreads hfits]
    rfl

end Exact

/-- The limit is one on the height of trees.  A text that passes the scan for parentheses is read
if it spells a chain, none of its texts has an escape by the number of a surrogate, and the tree
as which the chain reads is within the limit.  There is exactly one such tree, a group is as high
as what it holds, and the check of runs of operators refuses no chain whose tree is within the
limit. -/
theorem limit_exact {maxDepth : Nat} {source : String}
    (hscan : deepParenthesis? maxDepth {} 0 source.toList = none) :
    ((∃ t, parse maxDepth source = .ok t) ↔
      ∃ c, Spells source.toList c ∧ ¬ c.HasSurrogate ∧
        ∃ t, ReadsChain source c t ∧ (t.isLeaf = true ∨ t.height ≤ maxDepth)) ∧
    (∀ c, Spells source.toList c → ¬ c.HasSurrogate →
      ∃ t, ReadsChain source c t ∧ ∀ t', ReadsChain source c t' → t' = t) ∧
    (∀ t, parse maxDepth source = .ok t → ∃ c, Spells source.toList c ∧ ReadsChain source c t) ∧
    (∀ c span t, ReadsPrimary source (.group c span) t →
      ∃ t', ReadsChain source c t' ∧ t.isLeaf = t'.isLeaf ∧ t.height = t'.height) ∧
    ∀ c t, ReadsChain source c t → (t.isLeaf = true ∨ t.height ≤ maxDepth) →
      longRun? maxDepth 0 c = none := by
  refine ⟨⟨?accepted, ?accepts⟩, ?unique, ?tree, ?group, fun c t => longRun?_of_fits⟩
  case accepted =>
    rintro ⟨t, ht⟩
    obtain ⟨c, hc, hreads, hfits⟩ := (parse_eq_ok_iff hscan).1 ht
    have hspells := spells_of_recognize hc
    exact ⟨c, hspells, (exists_readsChain_iff_of_spells hspells).1 ⟨t, hreads⟩, t, hreads, hfits⟩
  case accepts =>
    rintro ⟨c, hspells, -, t, hreads, hfits⟩
    -- what is recognised is the same chain, perhaps with operators at other places
    obtain ⟨c', hc', hsame⟩ := recognize_of_spells hspells
    obtain ⟨t', ht', htree⟩ := @ReadsChain.exists_same source source _ _ _ hreads hsame
    exact ⟨t', (parse_eq_ok_iff hscan).2
      ⟨c', hc', ht', Fits.of_withoutSpans_eq (t := t) hfits htree⟩⟩
  case unique =>
    intro c hspells hsurrogate
    obtain ⟨t, ht⟩ := (exists_readsChain_iff_of_spells hspells).2 hsurrogate
    exact ⟨t, ht, fun t' ht' => ht'.unique ht⟩
  case tree =>
    intro t ht
    obtain ⟨c, hc, hreads, -⟩ := (parse_eq_ok_iff hscan).1 ht
    exact ⟨c, spells_of_recognize hc, hreads⟩
  case group =>
    intro c span t h
    cases h with
    | @group _ _ t' ht' => exact ⟨t', ht', isLeaf_withSpan span t', height_withSpan span t'⟩

/-- Two operators in front and a power between them nest three deep above the exponent. -/
theorem limit_exact_of_signs_and_power :
    (∃ c, Spells "-a ^ -b".toList c ∧ ¬ c.HasSurrogate ∧
      ∃ t, ReadsChain "-a ^ -b" c t ∧ (t.isLeaf = true ∨ t.height ≤ 4)) ∧
    ¬ ∃ c, Spells "-a ^ -b".toList c ∧ ¬ c.HasSurrogate ∧
      ∃ t, ReadsChain "-a ^ -b" c t ∧ (t.isLeaf = true ∨ t.height ≤ 3) := by
  have hread : ((parse 4 "-a ^ -b").toOption.isSome && (parse 3 "-a ^ -b").toOption.isNone) =
      true := by
    decide +kernel
  obtain ⟨hfour, hthree⟩ := Bool.and_eq_true_iff.1 hread
  refine ⟨(limit_exact (by decide)).1.1 ?_, fun h => ?_⟩
  · obtain ⟨t, ht⟩ := Option.isSome_iff_exists.1 hfour
    exact ⟨t, toOption_eq_some_iff.1 ht⟩
  · obtain ⟨t, ht⟩ := (limit_exact (by decide)).1.2 h
    rw [ht] at hthree
    cases hthree

/-! ### Higher limits -/

/-- The limit was exceeded. -/
def ExceedsLimit (e : SyntaxError) : Prop := ∃ k, e.fault = .tooDeep k

/-- The second outcome is the first, unless the limit was exceeded there. -/
def Settles {α : Type} (x y : Build α) : Prop := (∀ e, x = .error e → ¬ ExceedsLimit e) → y = x

section Settles

variable {source : String} {limit higher : Nat} {α β : Type}

theorem Settles.refl (x : Build α) : Settles x x := fun _ => rfl

theorem Settles.of_tooDeep {span : Span} {y : Build α} :
    Settles (refuse source (.tooDeep limit) span) y :=
  fun h => absurd ⟨limit, rfl⟩ (h _ rfl)

theorem Settles.bind {x y : Build α} {f g : α → Build β} (hx : Settles x y)
    (hf : ∀ a, Settles (f a) (g a)) : Settles (x >>= f) (y >>= g) := by
  intro h
  have hsame : y = x := hx fun e he => h e (bind_eq_error_iff.2 (.inl he))
  subst hsame
  cases y with
  | error e => rfl
  | ok a => exact hf a h

theorem Settles.map {x y : Build α} (h : Settles x y) (f : α → β) :
    Settles (x.map f) (y.map f) := by
  intro hmap
  rw [h fun e he => hmap e (map_eq_error_iff.2 he)]

theorem Settles.nest (hle : limit ≤ higher) (t : Tree) (height : Nat) :
    Settles (nest source limit t height) (nest source higher t height) := by
  unfold Tree.nest
  split
  · exact .of_tooDeep
  · rw [if_neg (by omega)]
    exact .refl _

theorem Settles.signed (hle : limit ≤ higher) (s : Sign) {x y : Build Built} (h : Settles x y) :
    Settles (signed source limit s x) (signed source higher s y) :=
  h.bind fun _ => .nest hle _ _

theorem Settles.joined (hle : limit ≤ higher) (op : InfixOp) {x y x' y' : Build Built}
    (hx : Settles x x') (hy : Settles y y') :
    Settles (joined source limit op x y) (joined source higher op x' y') :=
  hx.bind fun _ => hy.bind fun _ => .nest hle _ _

theorem inSigns_of_le (hle : limit ≤ higher) {run count : Nat} {signs : List Sign}
    (h : longRun?.inSigns limit run signs = (count, none)) :
    longRun?.inSigns higher run signs = (count, none) := by
  induction signs generalizing run with
  | nil => exact h
  | cons s signs ih =>
      rw [longRun?.inSigns] at h ⊢
      split at h
      · cases h
      · rw [if_neg (by omega)]
        exact ih h

/-- A run that is not too long is not too long for a higher limit. -/
theorem longRun?_of_le (hle : limit ≤ higher) {c : Chain} {run : Nat}
    (h : longRun? limit run c = none) : longRun? higher run c = none := by
  induction c using Chain.induction generalizing run with
  | single signs p =>
      rw [longRun?] at h ⊢
      have hsigns := @inSigns_of_le limit higher hle run (longRun?.inSigns limit run signs).1 signs
        (Prod.ext rfl h)
      rw [hsigns]
  | link signs p op span rest ih =>
      rw [longRun?] at h ⊢
      split at h
      · cases h
      · rename_i count hcount
        rw [inSigns_of_le hle hcount]
        simp only
        split at h
        · rename_i hpower
          split at h
          · cases h
          · rw [if_pos hpower, if_neg (by omega)]
            exact ih h
        · rename_i hpower
          rw [if_neg hpower]
          exact ih h

theorem Settles.assembled (hle : limit ≤ higher) {c : Chain}
    (h : ∀ p ∈ c.sequence.operands, Settles (ofPrimary source limit p) (ofPrimary source higher p)) :
    Settles (assembled source limit c (operandsOf source limit c))
      (assembled source higher c (operandsOf source higher c)) := by
  unfold Tree.assembled
  split
  · exact .of_tooDeep
  · rename_i hrun
    rw [longRun?_of_le hle hrun, operandsOf_eq, operandsOf_eq]
    exact grouped_relates (fun s _ _ => .signed hle s) (fun op _ _ _ _ => .joined hle op) h

theorem Settles.ofChains (hle : limit ≤ higher) {cs : List Chain}
    (h : ∀ c ∈ cs, ∀ p ∈ c.sequence.operands,
      Settles (ofPrimary source limit p) (ofPrimary source higher p)) :
    Settles (ofChains source limit cs) (ofChains source higher cs) := by
  induction cs with
  | nil => exact .refl _
  | cons c cs ih =>
      rw [List.forall_mem_cons] at h
      rw [Tree.ofChains, Tree.ofChains]
      exact (Settles.assembled hle h.1).bind fun _ => (ih h.2).bind fun _ => .refl _

theorem Settles.ofPrimary (hle : limit ≤ higher) (p : Primary) :
    Settles (ofPrimary source limit p) (ofPrimary source higher p) := by
  induction p using Primary.induction with
  | group inner span ih =>
      rw [Tree.ofPrimary, Tree.ofPrimary]
      exact (Settles.assembled hle ih).bind fun _ => .refl _
  | call name args span ih =>
      rw [Tree.ofPrimary, Tree.ofPrimary]
      exact (Settles.ofChains hle ih).bind fun _ => .nest hle _ _
  | leaf leaf span =>
      rw [Tree.ofPrimary, Tree.ofPrimary]
      exact .refl _

theorem Settles.ofChain (hle : limit ≤ higher) (c : Chain) :
    Settles (ofChain source limit c) (ofChain source higher c) :=
  .assembled hle fun p _ => .ofPrimary hle p

/-- Parentheses that are not too deep are not too deep for a higher limit. -/
theorem deepParenthesis?_of_le (hle : limit ≤ higher) {cs : List Char}
    (h : deepParenthesis? limit {} 0 cs = none) : deepParenthesis? higher {} 0 cs = none := by
  rw [deepParenthesis?_eq_none_iff (Nat.zero_le _)] at h ⊢
  exact Nat.le_trans h hle

theorem Settles.parse (hle : limit ≤ higher) :
    Settles (parse limit source) (parse higher source) := by
  unfold Tree.parse
  split
  · exact .of_tooDeep
  · rename_i hscan
    rw [deepParenthesis?_of_le hle hscan]
    simp only
    split
    · exact .refl _
    · exact (Settles.ofChain hle _).map _

end Settles

/-- A higher limit does not change what was decided.  Unless a text is refused for its depth under
one limit, it is read as the same tree, or refused for the same fault in the same place, under
every higher limit. -/
theorem parse_of_limit_le {limit higher : Nat} {source : String} (hle : limit ≤ higher)
    (h : ∀ e, parse limit source = .error e → ¬ ∃ k, e.fault = .tooDeep k) :
    parse higher source = parse limit source :=
  Settles.parse hle h

/-- The number of a surrogate is found behind an argument that takes up the whole limit. -/
theorem parse_of_limit_le_of_surrogate :
    ∃ e, parse 2 "f(-a, \"\\ud800\")" = .error e ∧ parse 7 "f(-a, \"\\ud800\")" = .error e ∧
      e.fault = .invalidString (.notScalar 0 0xD800) ∧ e.span = ⟨6, 14⟩ := by
  let refusal : SyntaxError :=
    ⟨.invalidString (.notScalar 0 0xD800), "f(-a, \"\\ud800\")", ⟨6, 14⟩⟩
  have hcheck : (parse 2 "f(-a, \"\\ud800\")").map (fun _ => ()) = .error refusal := by
    decide +kernel
  have he : parse 2 "f(-a, \"\\ud800\")" = .error refusal := map_eq_error_iff.1 hcheck
  refine ⟨refusal, he, ?_, rfl, rfl⟩
  rw [parse_of_limit_le (by decide : 2 ≤ 7), he]
  rintro _ hother ⟨k, hk⟩
  obtain rfl := Except.error.inj (he.symm.trans hother)
  cases hk

end RowFormula.Tree
