/-
# Rows over their histories

A row is described by the operations carried out on it: which kind an attribute has, which
value, and how many attributes there are.  The value is looked for backwards from the last
operation.  The search does not go past the operation that fixed the kind, which gave a
value too, so the kind can be taken as known.
-/

import RowFormula.Proofs.Tables
import RowFormula.Row

namespace RowFormula.Row

/-- What can be done to a row. -/
inductive Operation where
  | declare (name : String) (kind : Kind)
  | insert (name : String) (value : Value)
  | set (name : String) (value : Value)
  | clear
  deriving DecidableEq, Repr

namespace Operation

/-- The attribute an operation is about. -/
def name? : Operation → Option String
  | declare name _ | insert name _ | set name _ => some name
  | clear => none

/-- The attribute that an operation enters into the row. -/
def entered? : Operation → Option String
  | declare name _ | insert name _ => some name
  | set .. | clear => none

/-- The kind that an operation fixes for an attribute. -/
def kindOf? (name : String) : Operation → Option Kind
  | declare other kind => if other = name then some kind else none
  | insert other value => if other = name then some value.kind else none
  | set .. | clear => none

/-- The value that an operation gives to an attribute of the given kind.  Setting a value
that cannot be converted gives none. -/
def valueOf? (name : String) (kind : Kind) : Operation → Option Value
  | declare other _ => if other = name then some (Value.missing kind) else none
  | insert other value | set other value => if other = name then value.coerce? kind else none
  | clear => some (Value.missing kind)

theorem kind_of_valueOf? {name : String} {kind : Kind} {op : Operation} {value : Value}
    (h : op.valueOf? name kind = some value) : value.kind = kind := by
  cases op with
  | declare other _ =>
      rw [valueOf?, Option.ite_none_right_eq_some] at h
      rw [← Option.some.inj h.2, Value.kind_missing]
  | insert other v | set other v =>
      rw [valueOf?, Option.ite_none_right_eq_some] at h
      exact Value.kind_of_coerce? h.2
  | clear => rw [← Option.some.inj h, Value.kind_missing]

/-- An operation that fixes the kind of an attribute gives it a value as well. -/
theorem exists_valueOf? {name : String} {kind : Kind} {op : Operation}
    (h : op.kindOf? name = some kind) : ∃ value, op.valueOf? name kind = some value := by
  cases op with
  | declare other k =>
      rw [kindOf?, Option.ite_none_right_eq_some] at h
      exact ⟨Value.missing kind, if_pos h.1⟩
  | insert other v =>
      rw [kindOf?, Option.ite_none_right_eq_some] at h
      obtain ⟨hname, hkind⟩ := h
      refine ⟨v, (if_pos hname).trans ?_⟩
      rw [← Option.some.inj hkind, Value.coerce?_self]
  | set | clear => cases h

end Operation

/-- Carries out an operation: how it ends, and the row it leaves behind. -/
def perform (r : Row) : Operation → Except RowFault Unit × Row
  | .declare name kind => (.ok (), r.declare name kind)
  | .insert name value => (.ok (), r.insert name value)
  | .set name value =>
    match r.set name value with
    | .ok r => (.ok (), r)
    | .error fault => (.error fault, r)
  | .clear => (.ok (), r.clear)

/-- The row after a history of operations, some of which may have failed. -/
def after (history : List Operation) : Row :=
  history.foldl (fun r op => (r.perform op).2) empty

/-- The kind that the last operation to fix one has given an attribute. -/
def lastKind? (history : List Operation) (name : String) : Option Kind :=
  history.reverse.findSome? (·.kindOf? name)

/-- The last value of a kind that was given to an attribute. -/
def lastValue? (history : List Operation) (name : String) (kind : Kind) : Option Value :=
  history.reverse.findSome? (·.valueOf? name kind)

section History

variable (history : List Operation) (op : Operation) (name : String)

theorem after_concat : after (history ++ [op]) = ((after history).perform op).2 := by
  rw [after, List.foldl_append]
  rfl

theorem lastKind?_concat :
    lastKind? (history ++ [op]) name = (op.kindOf? name).or (lastKind? history name) := by
  rw [lastKind?, List.reverse_concat, List.findSome?_cons]
  cases op.kindOf? name <;> rfl

theorem lastValue?_concat (kind : Kind) :
    lastValue? (history ++ [op]) name kind =
      (op.valueOf? name kind).or (lastValue? history name kind) := by
  rw [lastValue?, List.reverse_concat, List.findSome?_cons]
  cases op.valueOf? name kind <;> rfl

end History

/-- The ways in which setting an attribute can end. -/
theorem perform_set (r : Row) (name : String) (value : Value) :
    (r.get? name = none ∧ r.perform (.set name value) = (.error (.undeclared name), r)) ∨
    (∃ old, r.get? name = some old ∧ value.coerce? old.kind = none ∧
      r.perform (.set name value) = (.error (.kindMismatch name old.kind value.kind), r)) ∨
    ∃ old new, r.get? name = some old ∧ value.coerce? old.kind = some new ∧
      r.perform (.set name value) = (.ok (), r.insert name new) := by
  rw [perform, set]
  cases hold : r.get? name with
  | none => exact .inl ⟨rfl, rfl⟩
  | some old =>
      cases hnew : value.coerce? old.kind with
      | none => exact .inr (.inl ⟨old, rfl, hnew, by simp only [hnew]⟩)
      | some new => exact .inr (.inr ⟨old, new, rfl, hnew, by simp only [hnew]⟩)

/-- A failing operation changes nothing at all. -/
theorem perform_of_error {r : Row} {op : Operation} {fault : RowFault}
    (h : (r.perform op).1 = .error fault) : (r.perform op).2 = r := by
  cases op with
  | declare | insert | clear => cases h
  | set name value =>
      obtain ⟨-, hr⟩ | ⟨old, -, -, hr⟩ | ⟨old, new, -, -, hr⟩ := r.perform_set name value
      · rw [hr]
      · rw [hr]
      · rw [hr] at h
        cases h

/-- An operation on one attribute leaves the others alone. -/
theorem get?_perform_of_ne (r : Row) {op : Operation} {name other : String}
    (hop : op.name? = some name) (hother : other ≠ name) :
    (r.perform op).2.get? other = r.get? other := by
  have hinsert (value : Value) : (r.insert name value).get? other = r.get? other := by
    rw [get?_insert, if_neg (Ne.symm hother)]
  cases op with
  | declare | insert =>
      cases hop
      exact hinsert _
  | set _ value =>
      cases hop
      obtain ⟨-, hr⟩ | ⟨old, -, -, hr⟩ | ⟨old, new, -, -, hr⟩ := r.perform_set name value
      · rw [hr]
      · rw [hr]
      · rw [hr]
        exact hinsert new
  | clear => cases hop

/-- What one operation does to one attribute.  It gets a new value, of a new kind where the
operation fixes one and of its own kind otherwise, or keeps the value that it has. -/
theorem get?_perform (r : Row) (op : Operation) (name : String) :
    (r.perform op).2.get? name =
      match op.kindOf? name with
      | some kind => op.valueOf? name kind
      | none => (r.get? name).map fun old => (op.valueOf? name old.kind).getD old := by
  cases op with
  | clear => exact Table.get?_map _ _ _
  | declare other kind =>
      by_cases h : other = name
      · simp [perform, declare, get?_insert, Operation.kindOf?, Operation.valueOf?, h]
      · rw [get?_perform_of_ne r rfl (Ne.symm h)]
        simp [Operation.kindOf?, Operation.valueOf?, h]
  | insert other value =>
      by_cases h : other = name
      · simp [perform, get?_insert, Operation.kindOf?, Operation.valueOf?, h, Value.coerce?_self]
      · rw [get?_perform_of_ne r rfl (Ne.symm h)]
        simp [Operation.kindOf?, Operation.valueOf?, h]
  | set other value =>
      by_cases h : other = name
      · subst h
        obtain ⟨hold, hr⟩ | ⟨old, hold, hnew, hr⟩ | ⟨old, new, hold, hnew, hr⟩ :=
          r.perform_set other value
        · simp [hr, hold, Operation.kindOf?]
        · simp [hr, hold, hnew, Operation.kindOf?, Operation.valueOf?]
        · simp [hr, hold, hnew, get?_insert, Operation.kindOf?, Operation.valueOf?]
      · rw [get?_perform_of_ne r rfl (Ne.symm h)]
        simp [Operation.kindOf?, Operation.valueOf?, h]

/-- Only an operation that fixes a kind changes the kind of an attribute. -/
theorem kind?_perform (r : Row) (op : Operation) (name : String) :
    (r.perform op).2.kind? name = (op.kindOf? name).or (r.kind? name) := by
  rw [kind?, kind?, get?_perform]
  cases hkind : op.kindOf? name with
  | some kind =>
      obtain ⟨value, hvalue⟩ := Operation.exists_valueOf? hkind
      simp [hvalue, Operation.kind_of_valueOf? hvalue]
  | none =>
      rw [Option.map_map, Option.none_or]
      congr 1
      funext old
      cases hvalue : op.valueOf? name old.kind with
      | none => simp [hvalue]
      | some value => simp [hvalue, Operation.kind_of_valueOf? hvalue]

theorem kind?_after (history : List Operation) (name : String) :
    (after history).kind? name = lastKind? history name := by
  induction history using List.reverseRecOn with
  | nil => rfl
  | append_singleton history op ih => rw [after_concat, kind?_perform, ih, lastKind?_concat]

theorem get?_after (history : List Operation) (name : String) :
    (after history).get? name = (lastKind? history name).bind (lastValue? history name) := by
  induction history using List.reverseRecOn with
  | nil => rfl
  | append_singleton history op ih =>
      have hkind := kind?_after history name
      rw [after_concat, get?_perform, lastKind?_concat]
      cases hop : op.kindOf? name with
      | some kind =>
          obtain ⟨value, hvalue⟩ := Operation.exists_valueOf? hop
          simp [lastValue?_concat, hvalue]
      | none =>
          rw [Option.none_or, ← hkind, kind?]
          cases hold : (after history).get? name with
          | none => rfl
          | some old =>
              have hlast : lastValue? history name old.kind = some old := by
                rw [hold, ← hkind, kind?, hold] at ih
                exact ih.symm
              simp only [Option.map_some, Option.bind_some, lastValue?_concat, hlast]
              cases op.valueOf? name old.kind <;> rfl

/-- The names that a history has entered, in this order. -/
def entered (history : List Operation) : List String :=
  history.filterMap (·.entered?)

theorem entered_concat (history : List Operation) (op : Operation) :
    entered (history ++ [op]) = entered history ++ op.entered?.toList := by
  rw [entered, List.filterMap_append]
  cases h : op.entered? <;> simp [entered, h]

theorem after_hasKeys (history : List Operation) :
    (after history).values.HasKeys (entered history).toFinset := by
  induction history using List.reverseRecOn with
  | nil => exact .empty
  | append_singleton history op ih =>
      rw [after_concat, entered_concat, List.toFinset_append]
      cases op with
      | declare | insert => exact ih.insert _ _
      | clear =>
          rw [Operation.entered?, Option.toList_none, List.toFinset_nil, Finset.union_empty]
          exact ih.map fun value => Value.missing value.kind
      | set name value =>
          rw [Operation.entered?, Option.toList_none, List.toFinset_nil, Finset.union_empty]
          obtain ⟨-, hr⟩ | ⟨old, -, -, hr⟩ | ⟨old, new, hold, -, hr⟩ :=
            (after history).perform_set name value
          · rwa [hr]
          · rwa [hr]
          · have hname : name ∈ (entered history).toFinset :=
              (ih.isSome_iff name).1 (Option.isSome_of_eq_some hold)
            have hkeys := ih.insert name new
            rw [Finset.union_eq_left.2 (Finset.singleton_subset_iff.2 hname)] at hkeys
            rwa [hr]

/-- A row after any history of operations.

The kind of an attribute is the one that the last declaration or insertion fixed, and its
value is of this kind.  The value is the last one inserted, or set with success and
converted to the kind, or else the missing one since a later declaration or a clearing.  A
set fails for want of an attribute or of a conversion, and an operation that fails leaves
the row as it is.  No operation on an attribute changes another one.  The size of the row is
the number of different names declared or inserted. -/
theorem store_by_history (history : List Operation) :
    let r := after history
    (∀ name, r.kind? name = lastKind? history name) ∧
    (∀ name value, r.get? name = some value → lastKind? history name = some value.kind) ∧
    (∀ name, r.get? name = (lastKind? history name).bind (lastValue? history name)) ∧
    (∀ name value, (r.perform (.set name value)).1 =
      match lastKind? history name with
      | none => .error (.undeclared name)
      | some kind =>
        if (value.coerce? kind).isSome then .ok ()
        else .error (.kindMismatch name kind value.kind)) ∧
    (∀ op fault, (r.perform op).1 = .error fault → (r.perform op).2 = r) ∧
    (∀ op name, op.name? = some name →
      ∀ other, other ≠ name → (r.perform op).2.get? other = r.get? other) ∧
    r.size = (entered history).toFinset.card := by
  intro r
  have hkind (name : String) : r.kind? name = lastKind? history name := kind?_after history name
  refine ⟨hkind, fun name value hvalue => ?kind, get?_after history, fun name value => ?set,
    fun op fault => perform_of_error, fun op name hop other => get?_perform_of_ne r hop,
    (after_hasKeys history).size⟩
  case kind =>
    rw [← hkind, kind?, hvalue, Option.map_some]
  case set =>
    rw [← hkind, kind?]
    obtain ⟨hold, hr⟩ | ⟨old, hold, hnew, hr⟩ | ⟨old, new, hold, hnew, hr⟩ :=
      r.perform_set name value
    · rw [hr, hold]
      rfl
    · simp [hr, hold, hnew]
    · simp [hr, hold, hnew]

/-- A number is converted to the kind declared, and a text is not taken. -/
example :
    (after [.declare "a" .integer, .set "a" (.double 2), .set "a" (.string (some "x"))]).get? "a" =
      some (.integer 2) := by
  decide +kernel

end RowFormula.Row
