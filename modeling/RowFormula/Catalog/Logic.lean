/-
# Functions of truth values

The logical operators under names, and questions about a single value.
-/

import RowFormula.Function
import RowFormula.Value.Operation

namespace RowFormula.Catalog

/-- A logical operator under a name. -/
def logicalFunction (name description : String) (op : LogicalOp) : Function where
  name := name
  category := .logical
  description := description
  signature := .all [.truthy, .truthy]
  result := .fixed .boolean
  body := fun call args => do
    let a ← call.argument args 0
    let b ← call.argument args 1
    pure (.logical op a b)

/-- Conjunction, disjunction and negation under names. -/
def logical : List Function :=
  [logicalFunction "and" "Logical conjunction; missing if either argument is missing" .and,
    logicalFunction "or" "Logical disjunction; missing if either argument is missing" .or,
    { name := "not"
      category := .logical
      description := "Logical negation"
      signature := .all [.truthy]
      result := .fixed .boolean
      body := fun call args => do pure (.logicalNot (← call.argument args 0)) }]

/-- Whether a number is finite; missing for the missing number. -/
def finiteness (x : Float) : Value :=
  if x.isNaN then .missing .boolean else .ofBool x.isFinite

/-- Questions about a single value. -/
def comparison : List Function :=
  [{ name := "missing"
     category := .comparison
     description := "Whether the argument is a missing value"
     signature := .all [.any]
     result := .fixed .boolean
     body := fun call args => do pure (.ofBool (← call.argument args 0).isMissing) },
    { name := "isFinite"
      category := .comparison
      description := "Whether the argument is neither infinite nor missing"
      signature := .all [.numeric]
      result := .fixed .boolean
      body := fun _ args => pure (finiteness (numberAt args 0)) }]

end RowFormula.Catalog
