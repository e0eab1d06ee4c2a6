/-
# What steps of recognition take

`Recognize.Yields` relates a step to the results with which it can succeed, whatever attempts
were noted before it.  For each way in which steps are put together there is one inversion
lemma, so that the grammar can be read off the steps from the outside inwards.  In the other
direction, `Recognize.Takes` and `Recognize.Refuses` say how a step goes at a given place.
-/

import RowFormula.Grammar.Formula

namespace RowFormula.Grammar

namespace Cursor

/-- The text between two cursors. -/
def Passes (s : Cursor) (cs : List Char) (s' : Cursor) : Prop :=
  s.rest = cs ++ s'.rest ∧ s'.position = s.position + Span.bytesOf cs

theorem Passes.nil (s : Cursor) : s.Passes [] s := ⟨rfl, rfl⟩

theorem Passes.append {s s₁ s₂ : Cursor} {cs ds : List Char} (h : s.Passes cs s₁)
    (h' : s₁.Passes ds s₂) : s.Passes (cs ++ ds) s₂ := by
  constructor
  · rw [h.1, h'.1, List.append_assoc]
  · rw [h'.2, h.2, Span.bytesOf_append, Nat.add_assoc]

end Cursor

open Cursor (Passes)

namespace Recognize

variable {α β : Type}

/-- Result and attempts of a step that starts at a cursor with some attempts. -/
def outcome (p : Recognize α) (s : Cursor) (a : Attempts) : Option (α × Cursor) × Attempts :=
  p s a

section Outcomes

variable {s : Cursor} {a : Attempts}

theorem outcome_pure (x : α) : outcome (pure x) s a = (some (x, s), a) := rfl

theorem outcome_fail : outcome (fail : Recognize α) s a = (none, a) := rfl

theorem outcome_get : outcome get s a = (some (s, s), a) := rfl

theorem outcome_set (s' : Cursor) : outcome (set s') s a = (some ((), s'), a) := rfl

theorem outcome_modify (f : Cursor → Cursor) :
    outcome (modify f) s a = (some ((), f s), a) := rfl

theorem outcome_bind (p : Recognize α) (f : α → Recognize β) :
    outcome (p >>= f) s a =
      match outcome p s a with
      | (some (x, s'), a') => outcome (f x) s' a'
      | (none, a') => (none, a') := by
  unfold outcome
  rcases h : p s a with ⟨_ | ⟨x, s'⟩, a'⟩
  · simp only [bind, StateT.bind, OptionT.bind, OptionT.mk, h]
    rfl
  · simp only [bind, StateT.bind, OptionT.bind, OptionT.mk, h]

theorem outcome_bind_of_some {p : Recognize α} {f : α → Recognize β} {x : α} {s₁ : Cursor}
    {a₁ : Attempts} (h : outcome p s a = (some (x, s₁), a₁)) :
    outcome (p >>= f) s a = outcome (f x) s₁ a₁ := by
  rw [outcome_bind, h]

theorem outcome_bind_of_none {p : Recognize α} {f : α → Recognize β} {a₁ : Attempts}
    (h : outcome p s a = (none, a₁)) : outcome (p >>= f) s a = (none, a₁) := by
  rw [outcome_bind, h]

theorem outcome_orElse (p q : Recognize α) :
    outcome (p <|> q) s a =
      match outcome p s a with
      | (some r, a') => (some r, a')
      | (none, a') => outcome q s a' := by
  unfold outcome
  rcases h : p s a with ⟨_ | r, a'⟩
  · simp only [HOrElse.hOrElse, OrElse.orElse, Alternative.orElse, StateT.orElse]
    delta OptionT.orElse
    simp only [bind, StateT.bind, OptionT.mk, h]
  · simp only [HOrElse.hOrElse, OrElse.orElse, Alternative.orElse, StateT.orElse]
    delta OptionT.orElse
    simp only [bind, StateT.bind, OptionT.mk, h]
    rfl

theorem outcome_construct (c : Construct) (p : Recognize α) :
    outcome (construct c p) s a =
      match outcome p s a with
      | (some r, a') => (some r, a')
      | (none, a') => (none, a'.note a c s.position) := rfl

theorem recognize_eq (source : List Char) :
    recognize source =
      match outcome wholeText ⟨source, 0⟩ {} with
      | (some (chain, _), _) => .ok chain
      | (none, attempts) => .error attempts := rfl

end Outcomes

/-! ### Results -/

/-- The step can succeed with a result and leave a cursor. -/
def Yields (p : Recognize α) (s : Cursor) (x : α) (s' : Cursor) : Prop :=
  ∃ a, (outcome p s a).1 = some (x, s')

section Yields

variable {p q : Recognize α} {s s' : Cursor} {x y : α}

@[simp]
theorem yields_pure : Yields (pure x) s y s' ↔ x = y ∧ s = s' := by
  simp [Yields, outcome_pure]

@[simp]
theorem not_yields_fail : ¬ Yields (fail : Recognize α) s x s' := by
  simp [Yields, outcome_fail]

@[simp]
theorem yields_get {t : Cursor} : Yields get s t s' ↔ s = t ∧ s = s' := by
  simp [Yields, outcome_get]

@[simp]
theorem yields_set {t : Cursor} {u : Unit} : Yields (set t) s u s' ↔ t = s' := by
  simp [Yields, outcome_set]

@[simp]
theorem yields_modify {f : Cursor → Cursor} {u : Unit} :
    Yields (modify f) s u s' ↔ f s = s' := by
  simp [Yields, outcome_modify]

theorem Yields.of_bind {f : α → Recognize β} {y : β} (h : Yields (p >>= f) s y s') :
    ∃ x s₁, Yields p s x s₁ ∧ Yields (f x) s₁ y s' := by
  obtain ⟨a, ha⟩ := h
  rw [outcome_bind] at ha
  rcases hp : outcome p s a with ⟨_ | ⟨x, s₁⟩, a'⟩
  · simp [hp] at ha
  · rw [hp] at ha
    exact ⟨x, s₁, ⟨a, by rw [hp]⟩, a', ha⟩

theorem Yields.of_orElse (h : Yields (p <|> q) s x s') : Yields p s x s' ∨ Yields q s x s' := by
  obtain ⟨a, ha⟩ := h
  rw [outcome_orElse] at ha
  rcases hp : outcome p s a with ⟨_ | r, a'⟩
  · rw [hp] at ha
    exact .inr ⟨a', ha⟩
  · rw [hp] at ha
    exact .inl ⟨a, by rw [hp, ha]⟩

theorem Yields.of_construct {c : Construct} (h : Yields (construct c p) s x s') :
    Yields p s x s' := by
  obtain ⟨a, ha⟩ := h
  rw [outcome_construct] at ha
  rcases hp : outcome p s a with ⟨_ | r, a'⟩
  · simp [hp] at ha
  · rw [hp] at ha
    exact ⟨a, by rw [hp, ha]⟩

theorem Yields.of_first {ps : List (Recognize α)} (h : Yields (first ps) s x s') :
    ∃ p ∈ ps, Yields p s x s' := by
  induction ps with
  | nil => exact absurd h not_yields_fail
  | cons p ps ih =>
      rcases Yields.of_orElse h with h | h
      · exact ⟨p, List.mem_cons_self, h⟩
      · obtain ⟨q, hq, hyields⟩ := ih h
        exact ⟨q, List.mem_cons_of_mem _ hq, hyields⟩

theorem Yields.of_spanned {span : Span} (h : Yields (spanned p) s (x, span) s') :
    Yields p s x s' ∧ span = ⟨s.position, s'.position⟩ := by
  obtain ⟨_, _, hget, h⟩ := h.of_bind
  obtain ⟨rfl, rfl⟩ := yields_get.1 hget
  obtain ⟨_, _, hp, h⟩ := h.of_bind
  obtain ⟨_, _, hget, h⟩ := h.of_bind
  obtain ⟨rfl, rfl⟩ := yields_get.1 hget
  obtain ⟨heq, rfl⟩ := yields_pure.1 h
  cases heq
  exact ⟨hp, rfl⟩

/-- Results of a step that is taken again and again. -/
inductive Repeats (R : Cursor → α → Cursor → Prop) : Cursor → List α → Cursor → Prop
  | nil {s : Cursor} : Repeats R s [] s
  | cons {s s₁ s₂ : Cursor} {x : α} {xs : List α} :
      R s x s₁ → Repeats R s₁ xs s₂ → Repeats R s (x :: xs) s₂

theorem Yields.of_repeatUpTo {times : Nat} {xs : List α}
    (h : Yields (repeatUpTo p times) s xs s') : Repeats (Yields p) s xs s' := by
  induction times generalizing s xs with
  | zero =>
      obtain ⟨rfl, rfl⟩ := yields_pure.1 h
      exact .nil
  | succ times ih =>
      rcases Yields.of_orElse h with h | h
      · obtain ⟨x, s₁, hx, h⟩ := h.of_bind
        obtain ⟨ys, s₂, hys, h⟩ := h.of_bind
        obtain ⟨rfl, rfl⟩ := yields_pure.1 h
        exact .cons hx (ih hys)
      · obtain ⟨rfl, rfl⟩ := yields_pure.1 h
        exact .nil

theorem Yields.of_many {xs : List α} (h : Yields (many p) s xs s') :
    Repeats (Yields p) s xs s' := by
  obtain ⟨_, _, hget, h⟩ := h.of_bind
  obtain ⟨rfl, rfl⟩ := yields_get.1 hget
  exact h.of_repeatUpTo

end Yields

/-! ### Characters -/

section Characters

variable {s s' : Cursor} {u : Unit}

theorem Yields.of_satisfy {test : Char → Bool} {c : Char} (h : Yields (satisfy test) s c s') :
    test c = true ∧ s.Passes [c] s' := by
  obtain ⟨_, _, hget, h⟩ := h.of_bind
  obtain ⟨rfl, rfl⟩ := yields_get.1 hget
  obtain ⟨rest, position⟩ := s
  cases rest with
  | nil => exact absurd h not_yields_fail
  | cons d ds =>
      simp only at h
      split at h
      · rename_i htest
        obtain ⟨_, _, hmodify, h⟩ := h.of_bind
        obtain rfl := yields_modify.1 hmodify
        obtain ⟨rfl, rfl⟩ := yields_pure.1 h
        exact ⟨htest, rfl, rfl⟩
      · exact absurd h not_yields_fail

theorem Yields.of_char {c : Char} (h : Yields (char c) s u s') : s.Passes [c] s' := by
  obtain ⟨d, _, hd, h⟩ := h.of_bind
  obtain ⟨-, rfl⟩ := yields_pure.1 h
  obtain ⟨htest, hpasses⟩ := hd.of_satisfy
  rwa [← eq_of_beq htest]

theorem Yields.of_text {cs : List Char} (h : Yields (text cs) s u s') : s.Passes cs s' := by
  induction cs generalizing s with
  | nil =>
      obtain ⟨-, rfl⟩ := yields_pure.1 h
      exact Passes.nil s
  | cons c cs ih =>
      obtain ⟨_, _, hc, h⟩ := h.of_bind
      exact hc.of_char.append (ih h)

theorem Yields.of_isNotNext {c : Char} (h : Yields (isNotNext c) s u s') : s = s' := by
  obtain ⟨_, _, hget, h⟩ := h.of_bind
  obtain ⟨rfl, rfl⟩ := yields_get.1 hget
  split at h
  · split at h
    · exact absurd h not_yields_fail
    · exact (yields_pure.1 h).2
  · exact (yields_pure.1 h).2

theorem Yields.of_run {test : Char → Bool} {cs : List Char} (h : Yields (run test) s cs s') :
    (∀ c ∈ cs, test c = true) ∧ s.Passes cs s' := by
  obtain ⟨_, _, hget, h⟩ := h.of_bind
  obtain ⟨rfl, rfl⟩ := yields_get.1 hget
  obtain ⟨_, _, hset, h⟩ := h.of_bind
  obtain rfl := yields_set.1 hset
  obtain ⟨rfl, rfl⟩ := yields_pure.1 h
  exact ⟨fun c hc => List.all_eq_true.1 List.all_takeWhile c hc,
    List.takeWhile_append_dropWhile.symm, rfl⟩

theorem Yields.of_run1 {test : Char → Bool} {cs : List Char} (h : Yields (run1 test) s cs s') :
    cs ≠ [] ∧ (∀ c ∈ cs, test c = true) ∧ s.Passes cs s' := by
  obtain ⟨ds, _, hds, h⟩ := h.of_bind
  split at h
  · exact absurd h not_yields_fail
  · rename_i hempty
    obtain ⟨rfl, rfl⟩ := yields_pure.1 h
    exact ⟨fun hnil => hempty (by rw [hnil]; rfl), hds.of_run⟩

end Characters

/-! ### Steps at a given place -/

/-- The step succeeds here, whatever was attempted before. -/
def Takes (p : Recognize α) (s : Cursor) (x : α) (s' : Cursor) : Prop :=
  ∀ a, ∃ a', outcome p s a = (some (x, s'), a')

/-- The step fails here, whatever was attempted before. -/
def Refuses (p : Recognize α) (s : Cursor) : Prop :=
  ∀ a, ∃ a', outcome p s a = (none, a')

section Takes

variable {p q : Recognize α} {s s₁ s' : Cursor} {x : α}

theorem Takes.pure (x : α) (s : Cursor) : Takes (Pure.pure x) s x s := fun a => ⟨a, rfl⟩

theorem Takes.bind {f : α → Recognize β} {y : β} (hp : Takes p s x s₁)
    (hf : Takes (f x) s₁ y s') : Takes (p >>= f) s y s' := by
  intro a
  obtain ⟨a₁, ha₁⟩ := hp a
  obtain ⟨a₂, ha₂⟩ := hf a₁
  exact ⟨a₂, by rw [outcome_bind_of_some ha₁, ha₂]⟩

theorem Refuses.bind {f : α → Recognize β} (hp : Refuses p s) : Refuses (p >>= f) s := by
  intro a
  obtain ⟨a₁, ha₁⟩ := hp a
  exact ⟨a₁, outcome_bind_of_none ha₁⟩

theorem Takes.refuses_bind {f : α → Recognize β} (hp : Takes p s x s₁)
    (hf : Refuses (f x) s₁) : Refuses (p >>= f) s := by
  intro a
  obtain ⟨a₁, ha₁⟩ := hp a
  obtain ⟨a₂, ha₂⟩ := hf a₁
  exact ⟨a₂, by rw [outcome_bind_of_some ha₁, ha₂]⟩

theorem Takes.orElse (hp : Takes p s x s') : Takes (p <|> q) s x s' := by
  intro a
  obtain ⟨a₁, ha₁⟩ := hp a
  exact ⟨a₁, by rw [outcome_orElse, ha₁]⟩

theorem Refuses.orElse (hp : Refuses p s) (hq : Takes q s x s') : Takes (p <|> q) s x s' := by
  intro a
  obtain ⟨a₁, ha₁⟩ := hp a
  obtain ⟨a₂, ha₂⟩ := hq a₁
  refine ⟨a₂, ?_⟩
  rw [outcome_orElse, ha₁]
  exact ha₂

theorem Refuses.construct {c : Construct} (hp : Refuses p s) : Refuses (construct c p) s := by
  intro a
  obtain ⟨a₁, ha₁⟩ := hp a
  exact ⟨a₁.note a c s.position, by rw [outcome_construct, ha₁]⟩

theorem Refuses.spanned (hp : Refuses p s) : Refuses (spanned p) s :=
  Takes.refuses_bind (fun a => ⟨a, outcome_get⟩) hp.bind

theorem Refuses.first {ps : List (Recognize α)} (h : ∀ p ∈ ps, Refuses p s) :
    Refuses (first ps) s := by
  induction ps with
  | nil => exact fun a => ⟨a, outcome_fail⟩
  | cons p ps ih =>
      intro a
      obtain ⟨a₁, ha₁⟩ := h p List.mem_cons_self a
      obtain ⟨a₂, ha₂⟩ := ih (fun q hq => h q (List.mem_cons_of_mem _ hq)) a₁
      refine ⟨a₂, ?_⟩
      rw [Recognize.first, outcome_orElse, ha₁]
      exact ha₂

theorem Takes.construct {c : Construct} (hp : Takes p s x s') :
    Takes (construct c p) s x s' := by
  intro a
  obtain ⟨a₁, ha₁⟩ := hp a
  exact ⟨a₁, by rw [outcome_construct, ha₁]⟩

theorem Takes.spanned (hp : Takes p s x s') :
    Takes (spanned p) s (x, ⟨s.position, s'.position⟩) s' := by
  intro a
  obtain ⟨a₁, ha₁⟩ := hp a
  refine ⟨a₁, ?_⟩
  rw [Recognize.spanned, outcome_bind_of_some outcome_get, outcome_bind_of_some ha₁,
    outcome_bind_of_some outcome_get, outcome_pure]

/-- A step is repeated until it refuses. -/
theorem Takes.repeatUpTo {xs : List α} {times : Nat} (h : Repeats (Takes p) s xs s')
    (hstop : Refuses p s') (hle : xs.length ≤ times) : Takes (repeatUpTo p times) s xs s' := by
  induction times generalizing s xs with
  | zero =>
      obtain rfl := List.eq_nil_of_length_eq_zero (Nat.le_zero.1 hle)
      cases h
      exact Takes.pure [] s'
  | succ times ih =>
      cases h with
      | nil => exact hstop.bind.orElse (Takes.pure [] _)
      | cons hx hxs =>
          have hrest := ih hxs (Nat.le_of_succ_le_succ hle)
          refine Takes.orElse (hx.bind (Takes.bind hrest ?_))
          exact Takes.pure _ _

theorem Takes.many {xs : List α} (h : Repeats (Takes p) s xs s') (hstop : Refuses p s')
    (hle : xs.length ≤ s.rest.length + 1) : Takes (many p) s xs s' :=
  Takes.bind (fun a => ⟨a, outcome_get⟩) (Takes.repeatUpTo h hstop hle)

theorem Refuses.many (hp : Refuses p s) : Takes (Recognize.many p) s [] s :=
  Takes.many .nil hp (Nat.zero_le _)

theorem takes_satisfy {test : Char → Bool} {c : Char} {cs : List Char} {position : Nat}
    (h : test c = true) :
    Takes (satisfy test) ⟨c :: cs, position⟩ c ⟨cs, position + c.utf8Size⟩ := by
  intro a
  refine ⟨a, ?_⟩
  rw [satisfy, outcome_bind_of_some outcome_get]
  simp only [if_pos h]
  rw [outcome_bind_of_some (outcome_modify _), outcome_pure]

theorem refuses_satisfy {test : Char → Bool} (h : ∀ c ∈ s.rest.head?, test c = false) :
    Refuses (satisfy test) s := by
  obtain ⟨rest, position⟩ := s
  intro a
  refine ⟨a, ?_⟩
  rw [satisfy, outcome_bind_of_some outcome_get]
  cases rest with
  | nil => exact outcome_fail
  | cons c cs =>
      simp only [h c rfl, Bool.false_eq_true, if_false]
      exact outcome_fail

theorem refuses_text {c : Char} {cs : List Char} (h : ∀ d ∈ s.rest.head?, d ≠ c) :
    Refuses (text (c :: cs)) s :=
  Refuses.bind (Refuses.bind (refuses_satisfy fun d hd => beq_false_of_ne (h d hd)))

theorem takes_char {c : Char} {cs : List Char} {position : Nat} :
    Takes (char c) ⟨c :: cs, position⟩ () ⟨cs, position + c.utf8Size⟩ :=
  Takes.bind (takes_satisfy (beq_self_eq_true c)) (Takes.pure () _)

theorem takes_run {test : Char → Bool} {cs rest : List Char} {position : Nat}
    (hcs : ∀ c ∈ cs, test c = true) (hrest : ∀ c ∈ rest.head?, test c = false) :
    Takes (run test) ⟨cs ++ rest, position⟩ cs ⟨rest, position + Span.bytesOf cs⟩ := by
  have hstop : rest.takeWhile test = [] ∧ rest.dropWhile test = rest := by
    cases rest with
    | nil => exact ⟨rfl, rfl⟩
    | cons c cs => simp [hrest c rfl]
  have htake : (cs ++ rest).takeWhile test = cs := by
    rw [List.takeWhile_append_of_pos hcs, hstop.1, List.append_nil]
  have hdrop : (cs ++ rest).dropWhile test = rest := by
    rw [List.dropWhile_append_of_pos hcs, hstop.2]
  intro a
  refine ⟨a, ?_⟩
  rw [run, outcome_bind_of_some outcome_get]
  simp only [htake, hdrop]
  rw [outcome_bind_of_some (outcome_set _), outcome_pure]

theorem takes_run1 {test : Char → Bool} {cs rest : List Char} {position : Nat} (hne : cs ≠ [])
    (hcs : ∀ c ∈ cs, test c = true) (hrest : ∀ c ∈ rest.head?, test c = false) :
    Takes (run1 test) ⟨cs ++ rest, position⟩ cs ⟨rest, position + Span.bytesOf cs⟩ := by
  refine Takes.bind (takes_run hcs hrest) ?_
  rw [if_neg (by rwa [List.isEmpty_iff])]
  exact Takes.pure cs _

theorem takes_blanks (h : ∀ c ∈ s.rest.head?, isBlank c = false) : Takes blanks s () s :=
  Takes.bind (@takes_run isBlank [] s.rest s.position nofun h) (Takes.pure () s)

end Takes

end Recognize

end RowFormula.Grammar
