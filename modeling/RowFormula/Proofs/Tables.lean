/-
# Keys of tables

A table that is filled key by key has the keys that were entered, and as many entries as
there are different ones among them.  Of several entries of a key the last one counts.
-/

import Mathlib.Data.Finset.Card
import RowFormula.Table

namespace RowFormula.Table

variable {κ α : Type} [DecidableEq κ]

theorem length_put (key : κ) (value : α) (entries : List (κ × α)) :
    (put key value entries).length =
      if (entries.lookup key).isSome then entries.length else entries.length + 1 := by
  induction entries with
  | nil => rfl
  | cons e rest ih =>
      obtain ⟨k, v⟩ := e
      by_cases h : key = k
      · simp [put, h]
      · rw [put, if_neg (Ne.symm h), List.lookup_cons, beq_false_of_ne h, List.length_cons, ih,
          List.length_cons]
        split <;> rfl

/-- Only a new key makes a table larger. -/
theorem size_insert (t : Table κ α) (key : κ) (value : α) :
    (t.insert key value).size = if (t.get? key).isSome then t.size else t.size + 1 :=
  length_put key value t.entries

/-- Entries of other keys do not change what a key has. -/
theorem get?_foldl_insert {pairs : List (κ × α)} {key : κ} (h : ∀ p ∈ pairs, p.1 ≠ key)
    (t : Table κ α) : (pairs.foldl (fun t p => t.insert p.1 p.2) t).get? key = t.get? key := by
  induction pairs generalizing t with
  | nil => rfl
  | cons p pairs ih =>
      obtain ⟨hp, hpairs⟩ := List.forall_mem_cons.1 h
      rw [List.foldl_cons, ih hpairs, get?_insert, if_neg hp]

/-- The last entry of a key counts. -/
theorem get?_ofList {before later : List (κ × α)} {key : κ} {value : α}
    (h : ∀ p ∈ later, p.1 ≠ key) :
    (ofList (before ++ (key, value) :: later)).get? key = some value := by
  rw [ofList, List.foldl_append, List.foldl_cons, get?_foldl_insert h, get?_insert_self]

/-- The table has exactly the given keys. -/
structure HasKeys (t : Table κ α) (keys : Finset κ) : Prop where
  isSome_iff : ∀ key, (t.get? key).isSome ↔ key ∈ keys
  size : t.size = keys.card

namespace HasKeys

variable {t : Table κ α} {keys : Finset κ}

theorem empty : (empty : Table κ α).HasKeys ∅ :=
  ⟨fun _ => by simp, rfl⟩

theorem insert (h : t.HasKeys keys) (key : κ) (value : α) :
    (t.insert key value).HasKeys (keys ∪ {key}) := by
  refine ⟨fun other => ?keys, ?size⟩
  case keys =>
    rw [get?_insert, Finset.mem_union, Finset.mem_singleton, ← h.isSome_iff]
    by_cases hother : key = other
    · simp [hother]
    · simp [hother, Ne.symm hother]
  case size =>
    rw [size_insert, h.size]
    by_cases hkey : key ∈ keys
    · rw [if_pos ((h.isSome_iff key).2 hkey),
        Finset.union_eq_left.2 (Finset.singleton_subset_iff.2 hkey)]
    · rw [if_neg (mt (h.isSome_iff key).1 hkey),
        Finset.card_union_of_disjoint (Finset.disjoint_singleton_right.2 hkey),
        Finset.card_singleton]

theorem map (h : t.HasKeys keys) {β : Type} (f : α → β) : (t.map f).HasKeys keys := by
  refine ⟨fun key => ?_, (List.length_map _).trans h.size⟩
  rw [get?_map, Option.isSome_map, h.isSome_iff]

end HasKeys

end RowFormula.Table
