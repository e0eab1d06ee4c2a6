/-
# Kinds of values

Every formula has one kind, known before any row is seen.  `integer` refines
`double`: both hold a binary64 number, and the distinction survives arithmetic
so that whole results can be shown as whole numbers.

The lattice operations here are the ones the rest of the library needs:
`Kind.unify` for the two branches of a conditional and `Kind.promote` for the
operands of arithmetic.
-/

import RowFormula.Text.Blank

namespace RowFormula

/-- The five kinds a value can have. -/
inductive Kind where
  | integer
  | double
  | boolean
  | string
  | date
  deriving DecidableEq, Repr, Inhabited

namespace Kind

/-- All kinds, in the order in which they are listed to a reader. -/
def all : List Kind := [integer, double, boolean, string, date]

theorem mem_all (k : Kind) : k ∈ all := by
  cases k <;> simp [all]

/-- The two kinds that hold a number. -/
def isNumeric : Kind → Bool
  | integer | double => true
  | _ => false

/-- Kinds that can stand as a condition: numbers, where zero is false, and
truth values themselves. -/
def isTruthy (k : Kind) : Bool :=
  k.isNumeric || k == boolean

/-- The name under which messages mention a kind. -/
def name : Kind → String
  | integer => "INTEGER"
  | double => "DOUBLE"
  | boolean => "BOOLEAN"
  | string => "STRING"
  | date => "DATE"

/-- Missing values are equal exactly within one category, and the two numeric
kinds form one. -/
def sameCategory (a b : Kind) : Bool :=
  a == b || (a.isNumeric && b.isNumeric)

/-- The kind of a conditional whose branches have kinds `a` and `b`: two
different numeric kinds meet in `double`, and any other difference in `string`,
because every value can be written as text. -/
def unify (a b : Kind) : Kind :=
  if a = b then a
  else if a.isNumeric && b.isNumeric then double
  else string

/-- Numeric promotion over any number of operands: whole only if all are. -/
def promote (kinds : List Kind) : Kind :=
  if kinds.all (· == integer) then integer else double

/-- The kind of `a ∘ b` for a numeric operator other than division. -/
def arithmeticResult (a b : Kind) : Kind :=
  promote [a, b]

/-- Resolves a kind name as formulas and command lines write it.  Case and
surrounding blanks do not matter. -/
def ofName? (text : String) : Option Kind :=
  match Text.asciiLower (Text.trim text) with
  | "real" | "double" | "numerical" | "numeric" => some double
  | "integer" => some integer
  | "nominal" | "polynominal" | "string" | "text" => some string
  | "binominal" | "boolean" => some boolean
  | "date_time" | "date" | "time" => some date
  | _ => none

@[simp]
theorem unify_self (a : Kind) : unify a a = a := by
  simp [unify]

theorem unify_comm (a b : Kind) : unify a b = unify b a := by
  cases a <;> cases b <;> rfl

end Kind

end RowFormula
