/-
# What patterns match

`Spans` tells by the structure of a pattern which parts of a text it matches, whatever match is
preferred.  The matcher finds a match to every end that there is: it drops places that were found
before, and from a place where a repetition has been it does not go on a second time.
-/

import Mathlib.Data.Finset.Card
import Mathlib.Logic.Relation
import Mathlib.Order.Interval.Finset.Nat
import RowFormula.Pattern.Matcher

namespace RowFormula.Pattern

open Relation (Comp TransGen)

variable {text : List Char} {R S : Nat → Nat → Prop} {step f g : Place → List Place} {p q : Place}
  {places : List Place} {seen : List Nat} {greedy : Bool} {fuel i j k m n : Nat}

/-! ### Places of a text -/

/-- The place of a text behind so many characters, where nothing was recorded. -/
def Place.behind (text : List Char) (i : Nat) : Place :=
  ⟨i, (text.take i).reverse, text.drop i, []⟩

/-- The place is one of this text. -/
structure Place.In (p : Place) (text : List Char) : Prop where
  index_le : p.index ≤ text.length
  before_eq : p.before = (text.take p.index).reverse
  rest_eq : p.rest = text.drop p.index

theorem Place.start_in (text : List Char) : (Place.start text).In text :=
  ⟨Nat.zero_le _, rfl, rfl⟩

theorem Place.In.length_rest (h : p.In text) : p.index + p.rest.length = text.length := by
  rw [h.rest_eq, List.length_drop]
  exact Nat.add_sub_of_le h.index_le

theorem Place.In.next {c : Char} {cs : List Char} (h : p.In text) (hrest : p.rest = c :: cs) :
    ∃ q, p.next? = some q ∧ q.index = p.index + 1 ∧ q.In text := by
  have hdrop : text.drop p.index = c :: cs := h.rest_eq ▸ hrest
  have hlt : p.index < text.length := by
    have := h.length_rest
    rw [hrest] at this
    simp only [List.length_cons] at this
    omega
  have hc : text[p.index] = c := by
    rw [List.drop_eq_getElem_cons hlt] at hdrop
    exact (List.cons.inj hdrop).1
  have hnext : p.next? =
      some { p with index := p.index + 1, before := c :: p.before, rest := cs } := by
    rw [Place.next?, hrest]
  refine ⟨_, hnext, rfl, hlt, ?_, ?_⟩
  · rw [h.before_eq, List.take_succ_eq_append_getElem hlt, hc]
    simp
  · rw [← List.drop_drop, hdrop]
    rfl

theorem Assertion.holds_eq (a : Assertion) (h : p.In text) :
    a.holds p = a.holds (Place.behind text p.index) := by
  cases a <;> simp only [Assertion.holds, Place.behind, Place.wordBefore, Place.wordAfter,
    h.before_eq, h.rest_eq]

/-! ### The parts of a text that a pattern matches -/

/-- Goes from one place to another in so many steps. -/
def Repeats (R : Nat → Nat → Prop) : (count : Nat) → Nat → Nat → Prop
  | 0 => Eq
  | count + 1 => Comp R (Repeats R count)

/-- The pattern matches what is between two places of a text.  In a repetition, a limit below
`least` does not count. -/
def Spans (text : List Char) : Pattern → Nat → Nat → Prop
  | .empty => Eq
  | .oneOf set => fun i j => (∃ c, text[i]? = some c ∧ set.contains c = true) ∧ i + 1 = j
  | .assertion a => fun i j => a.holds (Place.behind text i) = true ∧ i = j
  | .seq a b => Comp (Spans text a) (Spans text b)
  | .either a b => fun i j => Spans text a i j ∨ Spans text b i j
  | .capture _ a => Spans text a
  | .repeated a least most _ => fun i j =>
    ∃ n, least ≤ n ∧ (∀ m ∈ most, n ≤ max least m) ∧ Repeats (Spans text a) n i j

theorem repeats_add : Repeats R (m + n) = Comp (Repeats R m) (Repeats R n) := by
  induction m with
  | zero => rw [Nat.zero_add, Repeats, Relation.eq_comp]
  | succ m ih => rw [Nat.succ_add, Repeats, ih, Repeats, Relation.comp_assoc]

theorem comp_repeats_iff {fits : Nat → Prop} :
    Comp (Repeats R m) (fun k j => ∃ n, fits n ∧ Repeats R n k j) i j ↔
      ∃ n, m ≤ n ∧ fits (n - m) ∧ Repeats R n i j := by
  constructor
  · rintro ⟨k, hk, n, hn, h⟩
    refine ⟨m + n, Nat.le_add_right m n, by rwa [Nat.add_sub_cancel_left], ?_⟩
    rw [repeats_add]
    exact ⟨k, hk, h⟩
  · rintro ⟨n, hmn, hn, h⟩
    rw [← Nat.add_sub_of_le hmn, repeats_add] at h
    obtain ⟨k, hk, h⟩ := h
    exact ⟨k, hk, n - m, hn, h⟩

theorem transGen_iff_repeats : TransGen R i j ↔ ∃ n, 0 < n ∧ Repeats R n i j := by
  constructor
  · intro h
    induction h using TransGen.head_induction_on with
    | single h => exact ⟨1, Nat.one_pos, _, h, rfl⟩
    | head h _ ih =>
        obtain ⟨n, -, hn⟩ := ih
        exact ⟨n + 1, Nat.succ_pos n, _, h, hn⟩
  · rintro ⟨n, hn, h⟩
    induction n generalizing i with
    | zero => exact absurd hn (Nat.lt_irrefl 0)
    | succ n ih =>
        obtain ⟨k, hk, h⟩ := h
        obtain _ | n := n
        · exact .single (h ▸ hk)
        · exact .head hk (ih (Nat.succ_pos n) h)

theorem Repeats.le (hR : ∀ {i j}, R i j → i ≤ j) (h : Repeats R n i j) : i ≤ j := by
  induction n generalizing i with
  | zero => exact Nat.le_of_eq h
  | succ n ih =>
      obtain ⟨k, hk, h⟩ := h
      exact (hR hk).trans (ih h)

theorem Spans.le {pattern : Pattern} (h : Spans text pattern i j) : i ≤ j := by
  induction pattern generalizing i j with
  | empty => exact Nat.le_of_eq h
  | oneOf set => exact h.2 ▸ Nat.le_succ i
  | assertion a => exact Nat.le_of_eq h.2
  | seq a b iha ihb =>
      obtain ⟨k, ha, hb⟩ := h
      exact (iha ha).trans (ihb hb)
  | either a b iha ihb => exact h.elim iha ihb
  | capture number a ih => exact ih h
  | repeated a least most greedy ih =>
      obtain ⟨n, -, -, h⟩ := h
      exact h.le ih

/-! ### Steps that find all ends -/

/-- From every place of a text, the step goes to the related places and to no others. -/
structure Finds (text : List Char) (step : Place → List Place) (R : Nat → Nat → Prop) : Prop where
  sound : ∀ {p q : Place}, p.In text → q ∈ step p → q.In text ∧ R p.index q.index
  complete : ∀ {p : Place} {j : Nat}, p.In text → R p.index j → ∃ q ∈ step p, q.index = j

theorem Finds.congr (h : Finds text f R) (hRS : ∀ i j, R i j ↔ S i j) : Finds text f S := by
  obtain rfl : R = S := funext₂ fun i j => propext (hRS i j)
  exact h

theorem mem_of_mem_distinct (h : p ∈ distinct places) : p ∈ places := by
  induction places with
  | nil => exact h
  | cons q places ih =>
      obtain rfl | h := List.mem_cons.1 h
      · exact List.mem_cons_self
      · exact List.mem_cons_of_mem q (ih (List.mem_of_mem_filter h))

theorem exists_mem_distinct (h : p ∈ places) : ∃ q ∈ distinct places, q.index = p.index := by
  induction places with
  | nil => cases h
  | cons r places ih =>
      by_cases hr : p.index = r.index
      · exact ⟨r, List.mem_cons_self, hr.symm⟩
      · obtain rfl | h := List.mem_cons.1 h
        · exact absurd rfl hr
        · obtain ⟨q, hq, hqp⟩ := ih h
          refine ⟨q, List.mem_cons_of_mem r (List.mem_filter.2 ⟨hq, ?_⟩), hqp⟩
          rw [hqp]
          exact decide_eq_true hr

theorem Finds.distinct (h : Finds text f R) : Finds text (fun p => distinct (f p)) R where
  sound hp hq := h.sound hp (mem_of_mem_distinct hq)
  complete hp hj := by
    obtain ⟨q, hq, rfl⟩ := h.complete hp hj
    exact exists_mem_distinct hq

theorem finds_stay : Finds text (fun p => [p]) Eq where
  sound hp hq := by
    obtain rfl := List.mem_singleton.1 hq
    exact ⟨hp, rfl⟩
  complete _ hj := ⟨_, List.mem_singleton_self _, hj⟩

theorem Finds.append (hf : Finds text f R) (hg : Finds text g S) :
    Finds text (fun p => f p ++ g p) fun i j => R i j ∨ S i j where
  sound hp hq := (List.mem_append.1 hq).elim (fun h => (hf.sound hp h).imp_right .inl)
    fun h => (hg.sound hp h).imp_right .inr
  complete hp hj := by
    obtain hj | hj := hj
    · obtain ⟨q, hq, rfl⟩ := hf.complete hp hj
      exact ⟨q, List.mem_append_left _ hq, rfl⟩
    · obtain ⟨q, hq, rfl⟩ := hg.complete hp hj
      exact ⟨q, List.mem_append_right _ hq, rfl⟩

theorem Finds.afterEach (hf : Finds text f R) (hg : Finds text g S) :
    Finds text (fun p => afterEach g (f p)) (Comp R S) := by
  refine Finds.distinct ⟨fun hp hq => ?_, fun hp hj => ?_⟩
  · obtain ⟨r, hr, hq⟩ := List.mem_flatMap.1 hq
    obtain ⟨hr, hR⟩ := hf.sound hp hr
    obtain ⟨hq, hS⟩ := hg.sound hr hq
    exact ⟨hq, r.index, hR, hS⟩
  · obtain ⟨k, hR, hS⟩ := hj
    obtain ⟨r, hr, rfl⟩ := hf.complete hp hR
    obtain ⟨q, hq, rfl⟩ := hg.complete (hf.sound hp hr).1 hS
    exact ⟨q, List.mem_flatMap.2 ⟨r, hr, hq⟩, rfl⟩

theorem Finds.record (h : Finds text f R) (number : Nat) :
    Finds text (fun p => (f p).map fun q => q.record number p.index) R where
  sound hp hq := by
    obtain ⟨r, hr, rfl⟩ := List.mem_map.1 hq
    obtain ⟨⟨hle, hbefore, hrest⟩, hR⟩ := h.sound hp hr
    exact ⟨⟨hle, hbefore, hrest⟩, hR⟩
  complete hp hj := by
    obtain ⟨q, hq, rfl⟩ := h.complete hp hj
    exact ⟨_, List.mem_map_of_mem hq, rfl⟩

theorem Finds.orStay (h : Finds text f R) :
    Finds text (fun p => orStay greedy p (f p)) fun i j => i = j ∨ R i j := by
  cases greedy with
  | false => exact (finds_stay.append h).distinct
  | true => exact ((h.append finds_stay).congr fun i j => or_comm).distinct

/-! ### Counted repetition -/

theorem Finds.times (hf : Finds text f S) (h : Finds text step R) (n : Nat) :
    Finds text (fun p => times step n (f p)) (Comp S (Repeats R n)) := by
  induction n generalizing f S with
  | zero => rwa [Repeats, Relation.comp_eq]
  | succ n ih =>
      rw [Repeats, ← Relation.comp_assoc]
      exact ih (hf.afterEach h)

theorem Finds.upTo (h : Finds text step R) (n : Nat) :
    Finds text (upTo step greedy n) fun i j => ∃ k ≤ n, Repeats R k i j := by
  induction n with
  | zero =>
      refine finds_stay.congr fun i j => ⟨fun h => ⟨0, Nat.le_refl 0, h⟩, ?_⟩
      rintro ⟨k, hk, h⟩
      obtain rfl := Nat.le_zero.1 hk
      exact h
  | succ n ih =>
      refine (h.afterEach ih).orStay.congr fun i j => ⟨?_, ?_⟩
      · rintro (rfl | ⟨m, hm, k, hk, h⟩)
        · exact ⟨0, Nat.zero_le _, rfl⟩
        · exact ⟨k + 1, Nat.succ_le_succ hk, m, hm, h⟩
      · rintro ⟨_ | k, hk, h⟩
        · exact .inl h
        · obtain ⟨m, hm, h⟩ := h
          exact .inr ⟨m, hm, k, Nat.le_of_succ_le_succ hk, h⟩

/-! ### Unlimited repetition -/

/-- Goes on from a place to which a step was taken. -/
def visit (step : Place → List Place) (greedy : Bool) (fuel : Nat) :
    List Place × List Nat → Place → List Place × List Nat
  | (found, seen), q =>
    let (more, seen) := loopFrom step greedy fuel seen q
    (found ++ (if greedy then more ++ [q] else q :: more), seen)

theorem loopFrom_of_mem (h : p.index ∈ seen) : loopFrom step greedy fuel seen p = ([], seen) := by
  cases fuel with
  | zero => rfl
  | succ fuel => rw [loopFrom, if_pos (List.contains_iff_mem.2 h)]

theorem loopFrom_of_not_mem (h : p.index ∉ seen) : loopFrom step greedy (fuel + 1) seen p =
    (step p).foldl (visit step greedy fuel) ([], p.index :: seen) := by
  rw [loopFrom, if_neg (mt List.contains_iff_mem.1 h)]
  rfl

theorem exists_visit (step : Place → List Place) (greedy : Bool) (fuel : Nat) (found : List Place)
    (seen : List Nat) (q : Place) : ∃ more,
    visit step greedy fuel (found, seen) q = (found ++ more, (loopFrom step greedy fuel seen q).2) ∧
      ∀ r, r ∈ more ↔ r = q ∨ r ∈ (loopFrom step greedy fuel seen q).1 := by
  refine ⟨_, rfl, fun r => ?_⟩
  cases greedy <;> simp [or_comm]

theorem loopFrom_sound (h : Finds text step R) (hp : p.In text) :
    ∀ q ∈ (loopFrom step greedy fuel seen p).1, q.In text ∧ TransGen R p.index q.index := by
  induction fuel generalizing p seen with
  | zero => exact fun _ hq => nomatch hq
  | succ fuel ih =>
      by_cases hmem : p.index ∈ seen
      · rw [loopFrom_of_mem hmem]
        exact fun _ hq => nomatch hq
      rw [loopFrom_of_not_mem hmem]
      refine List.foldlRecOn (motive := fun acc : List Place × List Nat =>
        ∀ q ∈ acc.1, q.In text ∧ TransGen R p.index q.index) _ _ nofun ?_
      rintro ⟨found, seen⟩ hfound r hr q hq
      obtain ⟨hrin, hR⟩ := h.sound hp hr
      obtain ⟨more, hvisit, hmore⟩ := exists_visit step greedy fuel found seen r
      rw [hvisit] at hq
      obtain hq | hq := List.mem_append.1 hq
      · exact hfound q hq
      · obtain rfl | hq := (hmore q).1 hq
        · exact ⟨hrin, .single hR⟩
        · exact (ih hrin q hq).imp_right (.head hR)

/-- From all places that were seen in the meantime, every step was taken, and the places where the
steps led were found and seen as well. -/
structure Explores (R : Nat → Nat → Prop) (seen : List Nat) (found : List Place)
    (seen' : List Nat) : Prop where
  keeps : seen ⊆ seen'
  closed : ∀ i ∈ seen', i ∉ seen → ∀ j, R i j → j ∈ seen' ∧ ∃ q ∈ found, q.index = j

theorem explores_self (R : Nat → Nat → Prop) (seen : List Nat) (found : List Place) :
    Explores R seen found seen :=
  ⟨fun _ h => h, fun _ hi hnot => absurd hi hnot⟩

theorem Explores.trans {found found' : List Place} {seen' seen'' : List Nat}
    (h : Explores R seen found seen') (h' : Explores R seen' found' seen'') :
    Explores R seen (found ++ found') seen'' where
  keeps := List.Subset.trans h.keeps h'.keeps
  closed i hi hnot j hj := by
    by_cases hmem : i ∈ seen'
    · obtain ⟨hseen, q, hq, hqj⟩ := h.closed i hmem hnot j hj
      exact ⟨h'.keeps hseen, q, List.mem_append_left _ hq, hqj⟩
    · obtain ⟨hseen, q, hq, hqj⟩ := h'.closed i hi hmem j hj
      exact ⟨hseen, q, List.mem_append_right _ hq, hqj⟩

theorem Explores.mono {found found' : List Place} {seen' : List Nat}
    (h : Explores R seen found seen') (hsub : found ⊆ found') : Explores R seen found' seen' where
  keeps := h.keeps
  closed i hi hnot j hj := by
    obtain ⟨hseen, q, hq, hqj⟩ := h.closed i hi hnot j hj
    exact ⟨hseen, q, hsub hq, hqj⟩

/-- How many places from the first one on were not seen yet. -/
def unseen (text : List Char) (first : Nat) (seen : List Nat) : Nat :=
  (Finset.Icc first text.length \ seen.toFinset).card

theorem unseen_le {seen' : List Nat} {first : Nat} (h : seen ⊆ seen') :
    unseen text first seen' ≤ unseen text first seen :=
  Finset.card_le_card (Finset.sdiff_subset_sdiff (Finset.Subset.refl _)
    fun _ hi => List.mem_toFinset.2 (h (List.mem_toFinset.1 hi)))

theorem unseen_cons_lt {first : Nat} (hp : p.In text) (hfirst : first ≤ p.index)
    (h : p.index ∉ seen) : unseen text first (p.index :: seen) < unseen text first seen := by
  refine Finset.card_lt_card (Finset.ssubset_iff_of_subset ?_ |>.2 ⟨p.index, ?_, ?_⟩)
  · exact Finset.sdiff_subset_sdiff (Finset.Subset.refl _) (by simp)
  · simp [hfirst, hp.index_le, h]
  · simp

/-- Goes on from a place, which is seen then, and explores everything behind it. -/
def Visits (text : List Char) (R : Nat → Nat → Prop) (step : Place → List Place) (greedy : Bool)
    (first fuel : Nat) : Prop :=
  ∀ {q : Place} {seen : List Nat}, q.In text → first ≤ q.index → unseen text first seen ≤ fuel →
    Explores R seen (loopFrom step greedy fuel seen q).1 (loopFrom step greedy fuel seen q).2 ∧
      q.index ∈ (loopFrom step greedy fuel seen q).2

theorem Visits.foldl {first : Nat} (h : Visits text R step greedy first fuel)
    (hplaces : ∀ q ∈ places, q.In text ∧ first ≤ q.index)
    (hfuel : unseen text first seen ≤ fuel) (found : List Place) :
    ∃ more seen', places.foldl (visit step greedy fuel) (found, seen) = (found ++ more, seen') ∧
      Explores R seen more seen' ∧ ∀ q ∈ places, q ∈ more ∧ q.index ∈ seen' := by
  induction places generalizing found seen with
  | nil => exact ⟨[], seen, by simp, explores_self R seen [], nofun⟩
  | cons p places ih =>
      obtain ⟨⟨hp, hfirst⟩, hplaces⟩ := List.forall_mem_cons.1 hplaces
      obtain ⟨hexplores, hmem⟩ := h hp hfirst hfuel
      obtain ⟨more, hvisit, hmore⟩ := exists_visit step greedy fuel found seen p
      obtain ⟨more', seen', hfoldl, hexplores', hall⟩ :=
        ih hplaces ((unseen_le hexplores.keeps).trans hfuel) (found ++ more)
      refine ⟨more ++ more', seen', ?_, ?_, List.forall_mem_cons.2 ⟨⟨?_, ?_⟩, fun q hq => ?_⟩⟩
      · rw [List.foldl_cons, hvisit, hfoldl, List.append_assoc]
      · exact (hexplores.mono fun r hr => (hmore r).2 (.inr hr)).trans hexplores'
      · exact List.mem_append_left _ ((hmore p).2 (.inl rfl))
      · exact hexplores'.keeps hmem
      · exact (hall q hq).imp_left (List.mem_append_right _)

/-- Every visit takes a place that was not seen before, so the length of the text is enough. -/
theorem visits (h : Finds text step R) (hR : ∀ {i j}, R i j → i ≤ j) (greedy : Bool)
    (first fuel : Nat) : Visits text R step greedy first fuel := by
  induction fuel with
  | zero =>
      intro q seen hq hfirst hfuel
      by_cases hmem : q.index ∈ seen
      · exact ⟨explores_self R seen [], hmem⟩
      · exact absurd (unseen_cons_lt hq hfirst hmem) (by omega)
  | succ fuel ih =>
      intro q seen hq hfirst hfuel
      by_cases hmem : q.index ∈ seen
      · rw [loopFrom_of_mem hmem]
        exact ⟨explores_self R seen [], hmem⟩
      have hless : unseen text first (q.index :: seen) ≤ fuel :=
        Nat.le_of_lt_succ ((unseen_cons_lt hq hfirst hmem).trans_le hfuel)
      have hplaces : ∀ r ∈ step q, r.In text ∧ first ≤ r.index := fun r hr =>
        (h.sound hq hr).imp_right fun hqr => hfirst.trans (hR hqr)
      obtain ⟨more, seen', hfoldl, hexplores, hall⟩ :=
        ih.foldl hplaces hless []
      rw [loopFrom_of_not_mem hmem, hfoldl, List.nil_append]
      refine ⟨⟨fun i hi => hexplores.keeps (List.mem_cons_of_mem _ hi), fun i hi hnot j hj => ?_⟩,
        hexplores.keeps List.mem_cons_self⟩
      by_cases hi' : i = q.index
      · subst hi'
        obtain ⟨r, hr, rfl⟩ := h.complete hq hj
        exact ⟨(hall r hr).2, r, (hall r hr).1, rfl⟩
      · exact hexplores.closed i hi (by simp [hi', hnot]) j hj

theorem unseen_nil_le (hp : p.In text) : unseen text p.index [] ≤ p.rest.length + 2 := by
  have := hp.length_rest
  simp [unseen]
  omega

theorem Finds.loop (h : Finds text step R) (hR : ∀ {i j}, R i j → i ≤ j) :
    Finds text (loop step greedy) (TransGen R) := by
  refine Finds.distinct ⟨fun hp hq => loopFrom_sound h hp _ hq, fun {p j} hp hj => ?_⟩
  obtain ⟨hexplores, hmem⟩ :=
    visits h hR greedy p.index (p.rest.length + 2) hp (Nat.le_refl _) (unseen_nil_le hp)
  -- whatever can be reached was seen, so that the next step from there was taken
  have hreach : ∀ j, TransGen R p.index j →
      j ∈ (loopFrom step greedy (p.rest.length + 2) [] p).2 ∧
        ∃ q ∈ (loopFrom step greedy (p.rest.length + 2) [] p).1, q.index = j := by
    intro j hj
    induction hj with
    | single hj => exact hexplores.closed _ hmem List.not_mem_nil _ hj
    | tail _ hj ih => exact hexplores.closed _ ih.1 List.not_mem_nil _ hj
  exact (hreach j hj).2

/-! ### All ends -/

theorem Place.In.head?_rest (h : p.In text) : p.rest.head? = text[p.index]? := by
  rw [h.rest_eq, List.head?_drop]

theorem finds_oneOf (set : CharSet) : Finds text (ends (.oneOf set)) (Spans text (.oneOf set)) where
  sound {p q} hp hq := by
    rw [ends] at hq
    split at hq
    · cases hq
    · rename_i c cs hrest
      split at hq
      · rename_i hc
        obtain ⟨r, hnext, hindex, hr⟩ := hp.next hrest
        rw [hnext] at hq
        obtain rfl := List.mem_singleton.1 hq
        exact ⟨hr, ⟨c, by rw [← hp.head?_rest, hrest]; rfl, hc⟩, hindex.symm⟩
      · cases hq
  complete {p j} hp hj := by
    obtain ⟨⟨c, hchar, hc⟩, rfl⟩ := hj
    rw [← hp.head?_rest] at hchar
    obtain ⟨cs, hrest⟩ := List.head?_eq_some_iff.1 hchar
    obtain ⟨r, hnext, hindex, -⟩ := hp.next hrest
    refine ⟨r, ?_, hindex⟩
    simp [ends, hrest, hc, hnext]

theorem finds_assertion (a : Assertion) :
    Finds text (ends (.assertion a)) (Spans text (.assertion a)) where
  sound {p q} hp hq := by
    rw [ends] at hq
    split at hq
    · rename_i ha
      obtain rfl := List.mem_singleton.1 hq
      exact ⟨hp, a.holds_eq hp ▸ ha, rfl⟩
    · cases hq
  complete {p j} hp hj := by
    obtain ⟨ha, rfl⟩ := hj
    rw [← a.holds_eq hp] at ha
    exact ⟨p, by rw [ends, if_pos ha]; exact List.mem_singleton_self p, rfl⟩

theorem finds_times (h : Finds text step R) (n : Nat) :
    Finds text (fun p => times step n [p]) (Repeats R n) := by
  have hstay := finds_stay.times h n
  rwa [Relation.eq_comp] at hstay

theorem finds_repeated {a : Pattern} (h : Finds text (ends a) (Spans text a)) (least : Nat)
    (most : Option Nat) (greedy : Bool) : Finds text (ends (.repeated a least most greedy))
      (Spans text (.repeated a least most greedy)) := by
  have hloop : Finds text (loop (ends a) greedy)
      fun i j => ∃ n, 0 < n ∧ Repeats (Spans text a) n i j :=
    (h.loop Spans.le).congr fun i j => transGen_iff_repeats
  obtain _ | m := most
  · obtain _ | least := least
    · refine hloop.orStay.congr fun i j => ⟨?_, ?_⟩
      · rintro (rfl | ⟨n, -, hn⟩)
        · exact ⟨0, Nat.le_refl 0, nofun, rfl⟩
        · exact ⟨n, Nat.zero_le n, nofun, hn⟩
      · rintro ⟨_ | n, -, -, hn⟩
        · exact .inl hn
        · exact .inr ⟨n + 1, Nat.succ_pos n, hn⟩
    · refine ((finds_times h least).afterEach hloop).congr fun i j => ?_
      rw [comp_repeats_iff]
      refine exists_congr fun n => ⟨?_, ?_⟩
      · rintro ⟨-, hn, hrepeats⟩
        exact ⟨by omega, nofun, hrepeats⟩
      · rintro ⟨hn, -, hrepeats⟩
        exact ⟨by omega, by omega, hrepeats⟩
  · refine ((finds_times h least).afterEach (h.upTo (m - least))).congr fun i j => ?_
    rw [comp_repeats_iff]
    refine exists_congr fun n => and_congr_right fun hn => and_congr_left fun _ => ?_
    simp
    omega

/-- From every place of a text, the matcher finds the ends of all matches. -/
theorem finds_ends (pattern : Pattern) : Finds text (ends pattern) (Spans text pattern) := by
  induction pattern with
  | empty => exact finds_stay
  | oneOf set => exact finds_oneOf set
  | assertion a => exact finds_assertion a
  | seq a b iha ihb => exact iha.afterEach ihb
  | either a b iha ihb => exact (iha.append ihb).distinct
  | capture number a ih => exact ih.record number
  | repeated a least most greedy ih => exact finds_repeated ih least most greedy

theorem Spans.le_length {pattern : Pattern} (h : Spans text pattern i j) (hi : i ≤ text.length) :
    j ≤ text.length := by
  have hin : (Place.behind text i).In text := ⟨hi, rfl, rfl⟩
  obtain ⟨q, hq, rfl⟩ := (finds_ends pattern).complete hin h
  exact ((finds_ends pattern).sound hin hq).1.index_le

/-! ### Searching -/

theorem matchAt?_isSome_iff {pattern : Pattern} (hp : p.In text) :
    (matchAt? pattern p).isSome = true ↔ ∃ j, Spans text pattern p.index j := by
  rw [matchAt?, Option.isSome_map, List.isSome_head?]
  constructor
  · intro hne
    obtain ⟨q, hq⟩ := List.exists_mem_of_ne_nil _ (by simpa using hne)
    exact ⟨q.index, ((finds_ends pattern).sound hp hq).2⟩
  · rintro ⟨j, hj⟩
    obtain ⟨q, hq, -⟩ := (finds_ends pattern).complete hp hj
    simpa using List.ne_nil_of_mem hq

theorem searchFrom?_isSome_iff {pattern : Pattern} {steps : Nat} (hp : p.In text)
    (hsteps : p.index + steps ≤ text.length) :
    (searchFrom? pattern steps p).isSome = true ↔
      ∃ i j, p.index ≤ i ∧ i ≤ p.index + steps ∧ Spans text pattern i j := by
  induction steps generalizing p with
  | zero =>
      rw [searchFrom?, matchAt?_isSome_iff hp]
      constructor
      · rintro ⟨j, hj⟩
        exact ⟨p.index, j, Nat.le_refl _, Nat.le_refl _, hj⟩
      · rintro ⟨i, j, hle, hge, hj⟩
        obtain rfl := Nat.le_antisymm hle hge
        exact ⟨j, hj⟩
  | succ steps ih =>
      obtain ⟨c, cs, hrest⟩ : ∃ c cs, p.rest = c :: cs := by
        refine List.exists_cons_of_ne_nil fun hnil => ?_
        have := hp.length_rest
        simp [hnil] at this
        omega
      obtain ⟨r, hnext, hindex, hr⟩ := hp.next hrest
      have hlater := ih hr (by omega)
      cases hmatch : matchAt? pattern p with
      | some m =>
          obtain ⟨j, hj⟩ := (matchAt?_isSome_iff hp).1 (by rw [hmatch]; rfl)
          rw [searchFrom?, hmatch]
          exact ⟨fun _ => ⟨p.index, j, Nat.le_refl _, Nat.le_add_right _ _, hj⟩, fun _ => rfl⟩
      | none =>
          rw [searchFrom?, hmatch, hnext]
          refine hlater.trans ⟨?_, ?_⟩
          · rintro ⟨i, j, hle, hge, hj⟩
            exact ⟨i, j, by omega, by omega, hj⟩
          · rintro ⟨i, j, hle, hge, hj⟩
            have hne : i ≠ p.index := by
              rintro rfl
              have := (matchAt?_isSome_iff hp).2 ⟨j, hj⟩
              simp [hmatch] at this
            exact ⟨i, j, by omega, by omega, hj⟩

/-- A pattern matches in a text if it matches some part of it. -/
theorem matchesIn_iff {pattern : Pattern} {text : String} :
    pattern.matchesIn text = true ↔
      ∃ i j, i ≤ text.toList.length ∧ Spans text.toList pattern i j := by
  have hlength : (Place.start text.toList).index + (Place.start text.toList).rest.length =
      text.toList.length := Nat.zero_add _
  refine (searchFrom?_isSome_iff (Place.start_in _) (Nat.le_of_eq hlength)).trans ?_
  rw [hlength]
  exact exists_congr fun i => exists_congr fun j => and_iff_right (Nat.zero_le i)

/-! ### Whole texts -/

/-- The pattern for whole texts: between a start and an end of the text. -/
def anchored (pattern : Pattern) : Pattern :=
  .seq (.assertion .textStart) (.seq pattern (.assertion .textEnd))

/-- The pattern matches a text from its start to its end. -/
def MatchesWhole (pattern : Pattern) (text : String) : Prop :=
  Spans text.toList pattern 0 text.toList.length

theorem holds_textStart_iff : Assertion.textStart.holds (Place.behind text i) = true ↔
    i = 0 ∨ text = [] := by
  simp [Assertion.holds, Place.behind]

theorem holds_textEnd_iff : Assertion.textEnd.holds (Place.behind text i) = true ↔
    text.length ≤ i := by
  simp [Assertion.holds, Place.behind]

theorem matchesIn_anchored {pattern : Pattern} {text : String} :
    (anchored pattern).matchesIn text = true ↔ MatchesWhole pattern text := by
  rw [matchesIn_iff]
  constructor
  · rintro ⟨i, j, hi, _, ⟨hstart, rfl⟩, k, hk, hend, rfl⟩
    obtain rfl : k = text.toList.length :=
      Nat.le_antisymm (hk.le_length hi) (holds_textEnd_iff.1 hend)
    obtain rfl | hempty := holds_textStart_iff.1 hstart
    · exact hk
    · obtain rfl : i = 0 := by simpa [hempty] using hi
      exact hk
  · intro h
    exact ⟨0, _, Nat.zero_le _, 0, ⟨holds_textStart_iff.2 (.inl rfl), rfl⟩, _, h,
      holds_textEnd_iff.2 (Nat.le_refl _), rfl⟩

theorem MatchesWhole.matchesIn {pattern : Pattern} {text : String} (h : MatchesWhole pattern text) :
    pattern.matchesIn text = true :=
  matchesIn_iff.2 ⟨0, _, Nat.zero_le _, h⟩

end RowFormula.Pattern
