/-
# Inks

The colours of a report, as terminals understand them.  A report without colour is the
same text without the control sequences.
-/

namespace RowFormula

/-- What a piece of a report is painted for. -/
inductive Ink where
  | headline
  | margin
  /-- The margin beside lines that are not shown. -/
  | skippedMargin
  /-- Parts of a formula that the report is not about. -/
  | plain
  | label
  | note
  deriving DecidableEq, Repr

namespace Ink

/-- The parameters of the control sequence for an ink. -/
def code : Ink → String
  | headline => "31"
  | margin => "38;5;246"
  | skippedMargin => "38;5;240"
  | plain => "38;5;249"
  | label => "38;5;155"
  | note => "38;5;115"

/-- Paints a text, if there are colours at all. -/
def paint (colored : Bool) (ink : Ink) (text : String) : String :=
  if colored then "\x1b[" ++ ink.code ++ "m" ++ text ++ "\x1b[0m" else text

@[simp]
theorem paint_false (ink : Ink) (text : String) : ink.paint false text = text := rfl

end Ink

end RowFormula
