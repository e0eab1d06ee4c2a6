/-
# Bitwise functions

Bitwise functions reject what is not a whole number, the missing number included.
-/

import RowFormula.Function
import RowFormula.Number.Bitwise

namespace RowFormula.Catalog

/-- The bits of the number at a position. -/
def bitsAt (call : Call) (args : List Value) (position : Nat) :
    Evaluation EvaluationFault Int64 :=
  let x := numberAt args position
  call.require (.notWhole x) (Number.bits? x)

/-- A bitwise operation on two numbers. -/
def bitFunction (name description : String) (op : Number.BitOperation) : Function where
  name := name
  category := .bitwise
  description := description
  signature := .all [.numeric, .numeric]
  result := .fixed .integer
  body := fun call args => do
    let a ← bitsAt call args 0
    let b ← bitsAt call args 1
    pure (.integer (Number.ofBits64 (op.apply a b)))

/-- Operations on the bits of whole numbers. -/
def bitwise : List Function :=
  [bitFunction "bit_and" "Bitwise AND of two whole numbers" .and,
    bitFunction "bit_or" "Bitwise OR of two whole numbers" .or,
    bitFunction "bit_xor" "Bitwise XOR of two whole numbers" .xor,
    { name := "bit_not"
      category := .bitwise
      description := "Bitwise complement of a whole number"
      signature := .all [.numeric]
      result := .fixed .integer
      body := fun call args => do
        pure (.integer (Number.ofBits64 (~~~ (← bitsAt call args 0)))) }]

end RowFormula.Catalog
