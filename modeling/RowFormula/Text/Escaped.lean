/-
# Texts in quotes

A text inside a printed tree stands in quotes, and every character that would not
show is written as an escape.
-/

import RowFormula.Text.Category
import RowFormula.Text.Phrase

namespace RowFormula.Text

/-- Whether a character is written as an escape by its number: it does not show,
is a blank other than the ordinary one, or only extends the character before it. -/
def isHidden (c : Char) : Bool :=
  if 0x20 ≤ c.toNat && c.toNat < 0x7F then false
  else isOf (Category.others ++ Category.separators) c || extendsPrevious c

/-- How one character stands in a quoted text. -/
def escapedChar (c : Char) : String :=
  match c with
  | '\x00' => "\\0"
  | '\t' => "\\t"
  | '\r' => "\\r"
  | '\n' => "\\n"
  | '\\' => "\\\\"
  | '"' => "\\\""
  | c =>
    if isHidden c then "\\u\x7b" ++ hexadecimal c.toNat ++ "\x7d" else String.singleton c

/-- A text in quotes. -/
def quoted (s : String) : String :=
  "\"" ++ String.join (s.toList.map escapedChar) ++ "\""

end RowFormula.Text
