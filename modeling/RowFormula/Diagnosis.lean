/-
# Diagnoses

What every error says to a reader: a message, a code for looking it up, the span of
the formula that it is about, and possibly advice.
-/

import RowFormula.Span

namespace RowFormula

/-- A message about a place in a formula. -/
structure Diagnosis where
  message : String
  code : String
  span : Span
  help : Option String := none
  deriving DecidableEq, Repr

namespace Diagnosis

/-- How grave the matter is; all diagnoses are errors. -/
def severity (_ : Diagnosis) : String := "error"

/-- Severity, message and code on one line. -/
def headline (d : Diagnosis) : String :=
  d.severity ++ ": " ++ d.message ++ " [" ++ d.code ++ "]"

end Diagnosis

end RowFormula
