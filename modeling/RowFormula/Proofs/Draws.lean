/-
# Sequences of random numbers

What a call draws is told from the calls before it alone.  A call without a seed continues
the sequence of the process.  A call with a seed continues the sequence of that seed, as far
as it got since the generators were last forgotten, and `recentSeeds` says when that was.

Nothing here looks into a generator: of `Generator.next` it is only used that it is a
function.
-/

import RowFormula.Proofs.Tables
import RowFormula.Random.Draws

namespace RowFormula.Random

namespace Generator

/-- The generator after a number of draws. -/
def advance (g : Generator) : Nat → Generator
  | 0 => g
  | n + 1 => (g.advance n).next.2

/-- The number that is drawn as the `n`-th, counted from zero. -/
def nth (g : Generator) (n : Nat) : Float :=
  (g.advance n).next.1

end Generator

/-- The seeds drawn for since the generators were forgotten, when one more seed comes.  It
comes alone when it is new and as many others as possible are remembered. -/
def remember (recent : List Int) (seed : Int) : List Int :=
  if seed ∉ recent ∧ recent.toFinset.card = maxSeeds then [seed] else recent ++ [seed]

/-- The seeds drawn for since the generators were last forgotten, from the first to the
last, each as often as it was drawn for. -/
def recentSeeds (seeds : List Int) : List Int :=
  seeds.foldl remember []

theorem recentSeeds_concat (seeds : List Int) (seed : Int) :
    recentSeeds (seeds ++ [seed]) = remember (recentSeeds seeds) seed := by
  rw [recentSeeds, List.foldl_append]
  rfl

namespace Draws

/-- The generators of a process before its first draw. -/
def fresh (main ambient : Generator) : Draws := { main, ambient }

/-- The generators after a sequence of calls. -/
def after (d : Draws) (calls : List (Option Int)) : Draws :=
  calls.foldl (fun d call => (d.draw call).2) d

theorem after_concat (d : Draws) (calls : List (Option Int)) (call : Option Int) :
    d.after (calls ++ [call]) = ((d.after calls).draw call).2 := by
  rw [after, List.foldl_append]
  rfl

/-- A seed without a generator comes while as many as possible are remembered. -/
def NewAtLimit (d : Draws) (seed : Int) : Prop :=
  d.seeded.get? seed = none ∧ d.seeded.size = maxSeeds

instance (d : Draws) (seed : Int) : Decidable (d.NewAtLimit seed) :=
  inferInstanceAs (Decidable (_ ∧ _))

/-- A draw for a seed takes away the generator of some seed. -/
def Forgets (d : Draws) (seed : Int) : Prop :=
  ∃ other, d.seeded.get? other ≠ none ∧ (d.draw (some seed)).2.seeded.get? other = none

section Step

variable (d : Draws) (seed : Int)

/-- The generator that serves a seed. -/
def generatorFor : Generator :=
  (d.seeded.get? seed).getD (seedGenerator seed)

/-- The generators that a draw for a seed leaves in place. -/
def kept : Table Int Generator :=
  if d.seeded.get? seed = none ∧ maxSeeds ≤ d.seeded.size then Table.empty else d.seeded

/-- The one thing that a draw with a seed does. -/
theorem draw_some :
    d.draw (some seed) =
      ((d.generatorFor seed).next.1,
        { d with seeded := (d.kept seed).insert seed (d.generatorFor seed).next.2 }) := by
  rw [draw, generatorFor, kept]
  cases hlive : d.seeded.get? seed with
  | some g => rfl
  | none =>
      by_cases hfull : maxSeeds ≤ d.seeded.size
      · rw [if_pos hfull, if_pos ⟨rfl, hfull⟩]
        rfl
      · rw [if_neg hfull, if_neg fun h => hfull h.2]
        rfl

theorem draw_none : d.draw none = (d.main.next.1, { d with main := d.main.next.2 }) := rfl

end Step

/-- A table holds the generators of the given seeds.  Each is as many draws on as its seed
occurs there. -/
structure Serves (generators : Table Int Generator) (recent : List Int) : Prop
    extends generators.HasKeys recent.toFinset where
  generator : ∀ seed ∈ recent,
    generators.get? seed = some ((seedGenerator seed).advance (recent.count seed))

namespace Serves

variable {generators : Table Int Generator} {recent : List Int}

theorem empty : Serves Table.empty [] :=
  ⟨.empty, nofun⟩

theorem get?_eq_none_iff (h : Serves generators recent) {seed : Int} :
    generators.get? seed = none ↔ seed ∉ recent := by
  rw [← List.mem_toFinset, ← h.isSome_iff, Option.not_isSome_iff_eq_none]

/-- A seed is served by its own sequence, which is at its start when the seed is new. -/
theorem getD_eq (h : Serves generators recent) (seed : Int) :
    (generators.get? seed).getD (seedGenerator seed) =
      (seedGenerator seed).advance (recent.count seed) := by
  by_cases hseed : seed ∈ recent
  · rw [h.generator seed hseed, Option.getD_some]
  · rw [h.get?_eq_none_iff.2 hseed, List.count_eq_zero_of_not_mem hseed]
    rfl

/-- One more draw for a seed. -/
theorem concat (h : Serves generators recent) (seed : Int) :
    Serves (generators.insert seed ((seedGenerator seed).advance (recent.count seed)).next.2)
      (recent ++ [seed]) := by
  refine ⟨?keys, fun other hother => ?generator⟩
  case keys =>
    rw [List.toFinset_append]
    exact h.insert seed _
  case generator =>
    rw [Table.get?_insert, List.count_append]
    by_cases hne : seed = other
    · subst hne
      rw [if_pos rfl, List.count_singleton_self]
      rfl
    · have hrecent : other ∈ recent := by simpa [Ne.symm hne] using hother
      rw [if_neg hne, List.count_singleton, beq_false_of_ne hne]
      exact h.generator other hrecent

end Serves

/-- What a process remembers after draws for the given seeds. -/
structure Remembers (d : Draws) (recent : List Int) : Prop extends Serves d.seeded recent where
  capped : recent.toFinset.card ≤ maxSeeds

namespace Remembers

variable {d : Draws} {recent : List Int}

theorem size_le (h : d.Remembers recent) : d.seeded.size ≤ maxSeeds :=
  h.size ▸ h.capped

theorem newAtLimit_iff (h : d.Remembers recent) {seed : Int} :
    d.NewAtLimit seed ↔ seed ∉ recent ∧ recent.toFinset.card = maxSeeds := by
  rw [NewAtLimit, h.get?_eq_none_iff, h.size]

theorem kept_eq (h : d.Remembers recent) (seed : Int) :
    d.kept seed = if d.NewAtLimit seed then Table.empty else d.seeded :=
  if_congr (and_congr_right fun _ => ⟨h.size_le.antisymm, Eq.ge⟩) rfl rfl

theorem remember_eq (h : d.Remembers recent) (seed : Int) :
    remember recent seed = if d.NewAtLimit seed then [seed] else recent ++ [seed] :=
  if_congr h.newAtLimit_iff.symm rfl rfl

/-- A draw for a seed extends what is remembered, or starts it again. -/
theorem draw_some (h : d.Remembers recent) (seed : Int) :
    (d.draw (some seed)).2.Remembers (remember recent seed) := by
  rw [Draws.draw_some, generatorFor, h.getD_eq, h.kept_eq, h.remember_eq]
  by_cases hlimit : d.NewAtLimit seed
  case pos =>
    rw [if_pos hlimit, if_pos hlimit, List.count_eq_zero_of_not_mem (h.newAtLimit_iff.1 hlimit).1]
    exact ⟨Serves.empty.concat seed, by simp [maxSeeds]⟩
  case neg =>
    rw [if_neg hlimit, if_neg hlimit]
    refine ⟨h.concat seed, ?_⟩
    rw [← (h.concat seed).size, Table.size_insert]
    split
    case isTrue => exact h.size_le
    case isFalse hnew =>
      have hne : d.seeded.size ≠ maxSeeds := fun hsize =>
        hlimit ⟨Option.not_isSome_iff_eq_none.1 hnew, hsize⟩
      exact Nat.lt_of_le_of_ne h.size_le hne

theorem draw_none (h : d.Remembers recent) : (d.draw none).2.Remembers recent :=
  ⟨h.toServes, h.capped⟩

/-- After any sequence of calls a process remembers the seeds of the calls since it last
forgot its generators. -/
theorem after (main ambient : Generator) (calls : List (Option Int)) :
    ((fresh main ambient).after calls).Remembers (recentSeeds (calls.filterMap id)) := by
  induction calls using List.reverseRecOn with
  | nil => exact ⟨Serves.empty, Nat.zero_le _⟩
  | append_singleton calls call ih =>
      rw [after_concat]
      cases call with
      | none => simpa using ih.draw_none
      | some seed => simpa [recentSeeds_concat] using ih.draw_some seed

/-- A draw for a seed takes all other generators away or leaves all of them alone. -/
theorem get?_draw_of_ne (h : d.Remembers recent) {seed other : Int} (hother : other ≠ seed) :
    (d.draw (some seed)).2.seeded.get? other =
      if d.NewAtLimit seed then none else d.seeded.get? other := by
  rw [Draws.draw_some]
  show ((d.kept seed).insert seed _).get? other = _
  rw [Table.get?_insert, if_neg (Ne.symm hother), h.kept_eq]
  split <;> rfl

theorem forgets_iff (h : d.Remembers recent) (seed : Int) :
    d.Forgets seed ↔ d.NewAtLimit seed := by
  constructor
  case mp =>
    rintro ⟨other, hlive, hgone⟩
    by_cases hother : other = seed
    · rw [hother, Draws.draw_some, Table.get?_insert_self] at hgone
      cases hgone
    · rw [h.get?_draw_of_ne hother] at hgone
      by_contra hlimit
      exact hlive (by rwa [if_neg hlimit] at hgone)
  case mpr =>
    intro hlimit
    obtain ⟨hnew, hcard⟩ := h.newAtLimit_iff.1 hlimit
    -- the limit is not zero, so there is a generator to lose
    obtain ⟨other, hother⟩ := List.exists_mem_of_ne_nil recent (by rintro rfl; cases hcard)
    refine ⟨other, fun hnone => h.get?_eq_none_iff.1 hnone hother, ?_⟩
    rw [h.get?_draw_of_ne (by rintro rfl; exact hnew hother), if_pos hlimit]

end Remembers

/-- The generator of the process moves with the calls without a seed. -/
theorem after_main (main ambient : Generator) (calls : List (Option Int)) :
    ((fresh main ambient).after calls).main = main.advance (calls.count none) := by
  induction calls using List.reverseRecOn with
  | nil => rfl
  | append_singleton calls call ih =>
      rw [after_concat, List.count_append]
      cases call with
      | none => exact congrArg (·.next.2) ih
      | some seed => rw [draw_some]; exact ih

/-- What a process draws after any sequence of calls, with and without seeds.

A call with a seed gets the next number of the sequence of the seed, which went on with
every draw for the seed since the generators were last forgotten.  A call without a seed
gets the next number of the process.  The generators kept are those of the recent seeds,
never more than the limit.  All generators are forgotten together, exactly when a seed
without a generator comes at the limit; otherwise a draw touches the generator of its own
seed only, and draws with and without seeds leave the generators of each other alone. -/
theorem draw_by_history (main ambient : Generator) (calls : List (Option Int)) :
    let d := (fresh main ambient).after calls
    let recent := recentSeeds (calls.filterMap id)
    (∀ seed, (d.draw (some seed)).1 = (seedGenerator seed).nth (recent.count seed)) ∧
    (d.draw none).1 = main.nth (calls.count none) ∧
    (∀ seed, d.seeded.get? seed ≠ none ↔ seed ∈ recent) ∧
    (d.seeded.size = recent.toFinset.card ∧ d.seeded.size ≤ maxSeeds) ∧
    (∀ seed, (d.Forgets seed ↔ d.NewAtLimit seed) ∧
      recentSeeds ((calls ++ [some seed]).filterMap id) =
        (if d.NewAtLimit seed then [seed] else recent ++ [seed]) ∧
      ∀ other, other ≠ seed → (d.draw (some seed)).2.seeded.get? other =
        if d.NewAtLimit seed then none else d.seeded.get? other) ∧
    (∀ seed, (d.draw (some seed)).2.main = d.main) ∧
    (d.draw none).2.seeded = d.seeded := by
  intro d recent
  have h : d.Remembers recent := .after main ambient calls
  refine ⟨fun seed => ?value, ?unseeded, fun seed => ?live, ⟨h.size, h.size_le⟩,
    fun seed => ⟨h.forgets_iff seed, ?seeds, fun other => h.get?_draw_of_ne⟩,
    fun seed => ?main, rfl⟩
  case value =>
    rw [draw_some, generatorFor, h.getD_eq]
    rfl
  case unseeded =>
    rw [draw_none, after_main]
    rfl
  case live =>
    rw [Ne, h.get?_eq_none_iff, not_not]
  case seeds =>
    rw [List.filterMap_append]
    exact (recentSeeds_concat _ seed).trans (h.remember_eq seed)
  case main =>
    rw [draw_some]

end Draws

end RowFormula.Random
