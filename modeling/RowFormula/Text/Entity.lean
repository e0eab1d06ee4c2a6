/-
# Character entities

Five characters have a meaning in markup.  Where they are meant literally they
are written as entities.
-/

namespace RowFormula.Text

/-- The entity for a character of markup, and any other character itself. -/
def entity (c : Char) : String :=
  match c with
  | '&' => "&amp;"
  | '<' => "&lt;"
  | '>' => "&gt;"
  | '"' => "&quot;"
  | '\'' => "&#39;"
  | c => String.singleton c

/-- Writes a text so that markup shows it literally. -/
def escapeMarkup (s : String) : String :=
  String.join (s.toList.map entity)

end RowFormula.Text
