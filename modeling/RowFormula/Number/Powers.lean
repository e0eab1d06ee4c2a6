/-
# Powers of two and ten

The powers that binary and decimal numbers are scaled by.
-/

namespace RowFormula.Number

def twoTo (n : Nat) : Nat := Nat.pow 2 n

def tenTo (n : Nat) : Nat := Nat.pow 10 n

end RowFormula.Number
