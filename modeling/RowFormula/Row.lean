/-
# Rows

A row holds typed attributes.  The kind of an attribute is fixed when it is declared
or inserted; a value that is set later is converted to that kind.  An attribute
without a value reads as the missing value of its kind, so that one table of values
also holds the kinds.
-/

import RowFormula.Table
import RowFormula.Value

namespace RowFormula

/-- Attributes by name. -/
structure Row where
  values : Table String Value := {}
  deriving DecidableEq, Repr, Inhabited

/-- Why an attribute cannot be set. -/
inductive RowFault where
  | undeclared (name : String)
  | kindMismatch (name : String) (expected found : Kind)
  deriving DecidableEq, Repr

def RowFault.message : RowFault → String
  | undeclared name => "variable '" ++ name ++ "' is not declared"
  | kindMismatch name expected found =>
    "cannot assign a " ++ found.name ++ " value to variable '" ++ name ++ "' of kind " ++
      expected.name

namespace Row

/-- The row without any attribute. -/
def empty : Row := {}

/-- The value of an attribute. -/
def get? (r : Row) (name : String) : Option Value :=
  r.values.get? name

/-- The kind of an attribute. -/
def kind? (r : Row) (name : String) : Option Kind :=
  (r.get? name).map Value.kind

/-- Enters an attribute with the kind of the value, in place of the one that may have
the name. -/
def insert (r : Row) (name : String) (value : Value) : Row :=
  ⟨r.values.insert name value⟩

/-- Enters an attribute without a value. -/
def declare (r : Row) (name : String) (kind : Kind) : Row :=
  r.insert name (Value.missing kind)

/-- Gives an attribute a new value, which is converted to its kind. -/
def set (r : Row) (name : String) (value : Value) : Except RowFault Row :=
  match r.get? name with
  | none => .error (.undeclared name)
  | some old =>
    match value.coerce? old.kind with
    | none => .error (.kindMismatch name old.kind value.kind)
    | some value => .ok (r.insert name value)

/-- Takes all values away.  The kinds stay. -/
def clear (r : Row) : Row :=
  ⟨r.values.map fun v => Value.missing v.kind⟩

/-- Number of attributes. -/
def size (r : Row) : Nat := r.values.size

def ofList (values : List (String × Value)) : Row :=
  ⟨Table.ofList values⟩

/-- Names and kinds of all attributes, sorted by name. -/
def kinds (r : Row) : List (String × Kind) :=
  (r.values.entries.map fun e => (e.1, e.2.kind)).mergeSort fun a b => a.1 ≤ b.1

@[simp]
theorem get?_empty (name : String) : empty.get? name = none := rfl

theorem get?_insert (r : Row) (name other : String) (value : Value) :
    (r.insert name value).get? other = if name = other then some value else r.get? other :=
  Table.get?_insert r.values name other value

theorem get?_set {r s : Row} {name : String} {value : Value} (h : r.set name value = .ok s) :
    ∃ old new, r.get? name = some old ∧ value.coerce? old.kind = some new ∧
      s = r.insert name new := by
  unfold set at h
  split at h
  · cases h
  · split at h
    · cases h
    · exact ⟨_, _, by assumption, by assumption, by cases h; rfl⟩

end Row

end RowFormula
