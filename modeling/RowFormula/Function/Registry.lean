/-
# Registries of functions

A registry knows functions by name.  Registering a name again puts a new function
in its place; the serial number keeps the two apart.
-/

import RowFormula.Function
import RowFormula.Table

namespace RowFormula

/-- Functions by name. -/
structure Registry where
  functions : Table String Function := {}
  /-- The serial number of the next function. -/
  next : Nat := 0

namespace Registry

/-- The registry without any function. -/
def empty : Registry := {}

/-- The function of a name. -/
def get? (r : Registry) (name : String) : Option Function :=
  r.functions.get? name

/-- Adds a function, in place of the one that may have its name. -/
def register (r : Registry) (f : Function) : Registry :=
  ⟨r.functions.insert f.name { f with serial := r.next }, r.next + 1⟩

def ofList (functions : List Function) : Registry :=
  functions.foldl register empty

/-- All functions, sorted by name. -/
def sorted (r : Registry) : List Function :=
  r.functions.values.mergeSort fun f g => f.name ≤ g.name

@[simp]
theorem get?_empty (name : String) : empty.get? name = none := rfl

theorem get?_register (r : Registry) (f : Function) (name : String) :
    (r.register f).get? name =
      if f.name = name then some { f with serial := r.next } else r.get? name :=
  Table.get?_insert r.functions f.name name _

theorem get?_foldl_register {fs : List Function} {r : Registry} {name : String} {f : Function}
    (h : (fs.foldl register r).get? name = some f) :
    r.get? name = some f ∨
      ∃ g ∈ fs, ∃ serial, g.name = name ∧ f = { g with serial := serial } := by
  induction fs generalizing r with
  | nil => exact .inl h
  | cons g gs ih =>
    obtain hfirst | ⟨g', hmem, later⟩ := ih h
    · rw [get?_register] at hfirst
      split at hfirst
      · exact .inr ⟨g, List.mem_cons_self, r.next, by assumption, (Option.some.inj hfirst).symm⟩
      · exact .inl hfirst
    · exact .inr ⟨g', List.mem_cons_of_mem _ hmem, later⟩

/-- What a registry of some functions finds is one of them, under its own name. -/
theorem exists_mem_of_get?_ofList {fs : List Function} {name : String} {f : Function}
    (h : (ofList fs).get? name = some f) :
    ∃ g ∈ fs, ∃ serial, g.name = name ∧ f = { g with serial := serial } := by
  obtain hempty | hlisted := get?_foldl_register h
  · cases hempty
  · exact hlisted

end Registry

end RowFormula
