/-
# Order by code units

Texts are ordered by their UTF-16 code units.  This differs from the order by
characters: a character beyond the basic plane starts with a surrogate, which is
smaller than the last characters of the basic plane.
-/

namespace RowFormula.Text

/-- The UTF-16 code units of a character. -/
def unitsOf (c : Char) : List Nat :=
  if c.toNat < 0x10000 then [c.toNat]
  else
    let n := c.toNat - 0x10000
    [0xD800 + n / 0x400, 0xDC00 + n % 0x400]

/-- The UTF-16 code units of a text. -/
def units (s : String) : List Nat :=
  s.toList.flatMap unitsOf

/-- The difference of the first units that differ, or of the lengths when one list
continues the other. -/
def unitDifference : List Nat → List Nat → Int
  | [], [] => 0
  | [], bs => -bs.length
  | as, [] => as.length
  | a :: as, b :: bs => if a = b then unitDifference as bs else a - b

/-- Compares two texts: negative if the first comes first, positive if the second
does, and zero if they are equal. -/
def difference (a b : String) : Int :=
  unitDifference (units a) (units b)

/-- The order of two texts. -/
def order (a b : String) : Ordering :=
  compare (difference a b) 0

@[simp]
theorem unitDifference_self (as : List Nat) : unitDifference as as = 0 := by
  induction as with
  | nil => rfl
  | cons a as ih => simp [unitDifference, ih]

end RowFormula.Text
