/-
# Sets of kinds

An argument position of a function accepts a set of kinds.  Promotion is part
of acceptance: an integer may stand wherever a double is accepted.
-/

import RowFormula.Kind
import RowFormula.Text.Phrase

namespace RowFormula

/-- A set of kinds, one flag per kind. -/
structure KindSet where
  integer : Bool := false
  double : Bool := false
  boolean : Bool := false
  string : Bool := false
  date : Bool := false
  deriving DecidableEq, Repr, Inhabited

namespace KindSet

/-- No kind at all. -/
def empty : KindSet := {}

/-- Membership, without promotion. -/
def contains (s : KindSet) : Kind → Bool
  | .integer => s.integer
  | .double => s.double
  | .boolean => s.boolean
  | .string => s.string
  | .date => s.date

/-- Adds one kind. -/
def insert (s : KindSet) : Kind → KindSet
  | .integer => { s with integer := true }
  | .double => { s with double := true }
  | .boolean => { s with boolean := true }
  | .string => { s with string := true }
  | .date => { s with date := true }

def ofList (kinds : List Kind) : KindSet :=
  kinds.foldl insert empty

/-- The set of one kind. -/
def single (k : Kind) : KindSet := empty.insert k

/-- Both numeric kinds. -/
def numeric : KindSet := ofList [.integer, .double]

/-- The kinds that can stand as a condition. -/
def truthy : KindSet := ofList [.integer, .double, .boolean]

/-- Every kind. -/
def any : KindSet := ofList Kind.all

/-- Whether a value of kind `k` may be passed where `s` is expected: an integer
passes wherever a double does. -/
def accepts (s : KindSet) (k : Kind) : Bool :=
  s.contains k || (k == .integer && s.contains .double)

/-- The kinds of the set in the order of `Kind.all`. -/
def toList (s : KindSet) : List Kind :=
  Kind.all.filter s.contains

/-- How messages and listings mention the set: both numeric kinds together are
"numeric", and the set of all kinds is "any kind". -/
def text (s : KindSet) : String :=
  if s = any then "any kind"
  else
    let numbers :=
      if s.integer && s.double then ["numeric"]
      else if s.integer then [Kind.integer.name]
      else if s.double then [Kind.double.name]
      else []
    let others := [Kind.boolean, .string, .date].filter s.contains
    (Text.alternatives? (numbers ++ others.map Kind.name)).getD "nothing"

@[simp]
theorem contains_insert (s : KindSet) (a b : Kind) :
    (s.insert a).contains b = (a == b || s.contains b) := by
  cases a <;> cases b <;> rfl

@[simp]
theorem contains_empty (k : Kind) : empty.contains k = false := by
  cases k <;> rfl

theorem accepts_of_contains {s : KindSet} {k : Kind} (h : s.contains k = true) :
    s.accepts k = true := by
  simp [accepts, h]

@[simp]
theorem any_accepts (k : Kind) : any.accepts k = true := by
  cases k <;> rfl

end KindSet

end RowFormula
