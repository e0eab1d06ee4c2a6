/-
# Lines of a text

A text is cut into lines for showing parts of it.  Positions count characters over the
whole text, and a line includes the characters that end it.
-/

import RowFormula.Text.Blank
import RowFormula.Text.Width

namespace RowFormula.Report

/-- Characters that end a line. -/
def endsLine (c : Char) : Bool :=
  ['\n', '\r', '\x0b', '\x0c', '\u0085', '\u2028', '\u2029'].contains c

/-- Cuts a text behind every end of a line.  A carriage return and a line feed together
are one end. -/
def splitLines : List Char → List (List Char)
  | [] => []
  | '\r' :: '\n' :: cs => ['\r', '\n'] :: splitLines cs
  | c :: cs =>
    if endsLine c then [c] :: splitLines cs
    else
      match splitLines cs with
      | [] => [[c]]
      | line :: lines => (c :: line) :: lines

/-- A line and where it starts. -/
structure Line where
  start : Nat
  chars : List Char
  deriving DecidableEq, Repr, Inhabited

namespace Line

/-- The position behind a line. -/
def stop (l : Line) : Nat := l.start + l.chars.length

/-- Whether a position belongs to a line. -/
def contains (l : Line) (position : Nat) : Bool :=
  l.start ≤ position && position < l.stop

/-- The characters that are shown: those up to the blanks at the end. -/
def shown (l : Line) : List Char := Text.trimBack l.chars

/-- How far tabulators reach. -/
def tabWidth : Nat := 4

/-- The columns that a character takes.  A tabulator fills up to the next stop, counted
in characters. -/
def columnsOf (c : Char) (column : Nat) : Nat :=
  if c == '\t' then (column / tabWidth + 1) * tabWidth - column
  else if Text.isBlank c then 1
  else Text.width c

/-- The columns that the character with a number takes.  There is room for one column
behind the text. -/
def columnsAt (l : Line) (column : Nat) : Nat :=
  match l.shown[column]? with
  | some c => columnsOf c column
  | none => 1

end Line

/-- Places lines one behind the other. -/
def placeLines : (start : Nat) → List (List Char) → List Line
  | _, [] => []
  | start, l :: ls => ⟨start, l⟩ :: placeLines (start + l.length) ls

/-- The lines of a text, of which there is always at least one. -/
def linesOf (text : String) : List Line :=
  match splitLines text.toList with
  | [] => [⟨0, []⟩]
  | ls => placeLines 0 ls

/-- The number of the line in which a position lies, counted from zero: the last line
that starts at or before it. -/
def lineNumber (lines : List Line) (position : Nat) : Nat :=
  (lines.filter fun l => l.start ≤ position).length - 1

theorem flatten_splitLines (cs : List Char) : (splitLines cs).flatten = cs := by
  fun_induction splitLines cs with
  | case1 => rfl
  | case2 cs ih => simp [ih]
  | case3 c cs _ _ ih => simp [ih]
  | case4 c cs _ _ h ih => simp_all
  | case5 c cs _ _ line lines h ih => simp_all

end RowFormula.Report
