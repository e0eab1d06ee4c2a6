/-
# Syntax errors

A text is refused because something unexpected stands in it, because a literal
cannot be read, or because it nests too deeply.
-/

import RowFormula.Diagnosis
import RowFormula.Grammar.Literal
import RowFormula.Grammar.Recognizer

namespace RowFormula

/-- What is wrong with the text of a formula. -/
inductive SyntaxFault where
  /-- Something else was expected; `found` is nothing at the end of the text. -/
  | unexpected (expected : List Grammar.Construct) (found : Option Char)
  | invalidNumber (text : String)
  | invalidString (fault : Grammar.EscapeFault)
  | tooDeep (maxDepth : Nat)
  deriving DecidableEq, Repr

/-- A fault in the text of a formula, and its place. -/
structure SyntaxError where
  fault : SyntaxFault
  source : String
  span : Span
  deriving DecidableEq, Repr

namespace SyntaxFault

def message : SyntaxFault → String
  | unexpected expected found =>
    let shown :=
      match found with
      | some c => "'" ++ String.singleton c ++ "'"
      | none => "end of input"
    "Expected " ++ Grammar.Construct.expectation expected ++ ", found " ++ shown
  | invalidNumber text => "Invalid number literal '" ++ text ++ "'"
  | invalidString fault => "Invalid string literal: " ++ fault.message
  | tooDeep maxDepth =>
    "Expression nesting depth exceeds maximum of " ++ Text.decimal maxDepth ++ " levels"

def code : SyntaxFault → String
  | unexpected .. => "P001"
  | invalidNumber _ => "P002"
  | invalidString _ => "P003"
  | tooDeep _ => "P004"

def help : SyntaxFault → Option String
  | unexpected .. => none
  | invalidNumber _ => some "Check the number format"
  | invalidString _ => some "Supported escapes are \\\", \\\\, \\n, \\r, \\t and \\uXXXX"
  | tooDeep _ => some "Reduce nesting or simplify the expression"

end SyntaxFault

namespace SyntaxError

/-- The text at the place of the fault. -/
def fragment (e : SyntaxError) : String :=
  e.span.textOf e.source

def diagnosis (e : SyntaxError) : Diagnosis :=
  ⟨e.fault.message, e.fault.code, e.span, e.fault.help⟩

/-- The error as one line of text. -/
def text (e : SyntaxError) : String :=
  e.diagnosis.headline ++
    (if e.fragment.isEmpty then "" else " near '" ++ e.fragment ++ "'")

/-- The error at the furthest place that recognition reached. -/
def ofAttempts (source : String) (a : Grammar.Attempts) : SyntaxError :=
  let found := ((Span.dropBytes? a.position source.toList).getD []).head?
  let width := (found.map Char.utf8Size).getD 0
  ⟨.unexpected (Grammar.Construct.sorted a.tried) found, source,
    ⟨a.position, a.position + width⟩⟩

end SyntaxError

end RowFormula
