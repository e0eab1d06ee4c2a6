/-
# Texts in JSON

A text in JSON stands in quotes.  Quotes, backslashes and control characters are written
as escapes, and every other character stands for itself.
-/

import RowFormula.Text.Phrase

namespace RowFormula.Text

/-- How one character stands in JSON. -/
def jsonChar (c : Char) : String :=
  match c with
  | '"' => "\\\""
  | '\\' => "\\\\"
  | '\x08' => "\\b"
  | '\t' => "\\t"
  | '\n' => "\\n"
  | '\x0c' => "\\f"
  | '\r' => "\\r"
  | c =>
    if c.toNat < 0x20 then "\\u" ++ padLeft 4 '0' (hexadecimal c.toNat)
    else String.singleton c

/-- A text in JSON. -/
def jsonQuoted (s : String) : String :=
  "\"" ++ String.join (s.toList.map jsonChar) ++ "\""

/-- An object in JSON, from names and values that are JSON already. -/
def jsonObject (members : List (String × String)) : String :=
  let texts := members.map fun m => jsonQuoted m.1 ++ ":" ++ m.2
  "\x7b" ++ ",".intercalate texts ++ "\x7d"

end RowFormula.Text
