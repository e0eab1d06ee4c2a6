/-
# Tables of characters

Properties of characters beyond ASCII are kept as sorted lists of rows.  A
`StepRow` holds every character, or every second one, of a range, and a `ShiftRow`
also says where the characters of its range are sent.
-/

namespace RowFormula.Text

/-- Whether a character lies in one of the ranges, whose ends belong to them. -/
def inRanges (ranges : List (Nat × Nat)) (c : Char) : Bool :=
  ranges.any fun (first, last) => first ≤ c.toNat && c.toNat ≤ last

/-- Every `step`-th character from `first` to `last`. -/
structure StepRow where
  first : Nat
  last : Nat
  step : Nat

namespace StepRow

/-- Whether a code point belongs to the row. -/
def covers (row : StepRow) (n : Nat) : Bool :=
  row.first ≤ n && n ≤ row.last && (n - row.first) % row.step == 0

end StepRow

/-- Whether a character belongs to one of the rows. -/
def inRows (rows : List StepRow) (c : Char) : Bool :=
  rows.any fun row => row.covers c.toNat

/-- Every `step`-th character from `first` to `last` is sent `shift` code points
further. -/
structure ShiftRow where
  first : Nat
  last : Nat
  step : Nat
  shift : Int

namespace ShiftRow

/-- Whether the row concerns a code point. -/
def covers (row : ShiftRow) (n : Nat) : Bool :=
  row.first ≤ n && n ≤ row.last && (n - row.first) % row.step == 0

/-- The character to which a table sends `c`; `c` itself if no row concerns it. -/
def apply (rows : List ShiftRow) (c : Char) : Char :=
  match rows.find? fun row => row.covers c.toNat with
  | some row => Char.ofNat (c.toNat + row.shift).toNat
  | none => c

/-- The character that the row sends to `c`, if there is one. -/
def source? (row : ShiftRow) (c : Char) : Option Char :=
  let n := (c.toNat - row.shift).toNat
  if row.covers n then some (Char.ofNat n) else none

end ShiftRow

end RowFormula.Text
