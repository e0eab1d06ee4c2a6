/-
# Questions about texts

Comparing and searching texts.  All of these functions are missing if one of their
arguments is.
-/

import RowFormula.Function
import RowFormula.Pattern.Matcher
import RowFormula.Text.Search
import RowFormula.Text.Units

namespace RowFormula.Catalog

/-- The expression of a pattern. -/
def readPattern (call : Call) (text : String) : Evaluation EvaluationFault Pattern.Named :=
  match Pattern.read text with
  | .ok p => pure p
  | .error fault => call.reject (.invalidRegex text fault.message)

/-- The pattern that matches what another one matches as a whole text. -/
def wholePattern (pattern : String) : String :=
  "^(?:" ++ pattern ++ ")$"

/-- A yes-or-no question about two texts. -/
def textPredicate (name description : String)
    (test : Call → String → String → Evaluation EvaluationFault Bool) : Function where
  name := name
  category := .stringInformation
  description := description
  signature := .all [.single .string, .single .string]
  result := .fixed .boolean
  body := fun call args =>
    match textAt? args 0, textAt? args 1 with
    | some a, some b => do pure (.ofBool (← test call a b))
    | _, _ => pure (.missing .boolean)

/-- A number about two texts. -/
def textMeasure (name description : String) (measure : String → String → Int) :
    Function where
  name := name
  category := .stringInformation
  description := description
  signature := .all [.single .string, .single .string]
  result := .fixed .integer
  body := fun _ args =>
    match textAt? args 0, textAt? args 1 with
    | some a, some b => pure (.integer (Number.ofInt (measure a b)))
    | _, _ => pure (.missing .integer)

/-- Position of a text in another one, or -1. -/
def position (text wanted : String) : Int :=
  match Text.index? wanted text with
  | some i => i
  | none => -1

/-- Number of characters. -/
def length : Function where
  name := "length"
  category := .stringInformation
  description := "Number of characters in the text"
  signature := .all [.single .string]
  result := .fixed .integer
  body := fun _ args =>
    match textAt? args 0 with
    | some text => pure (.integer (Number.ofInt text.length))
    | none => pure (.missing .integer)

/-- Comparing, searching and measuring texts. -/
def stringInformation : List Function :=
  [textPredicate "contains" "Whether the text contains the search string"
      fun _ text wanted => pure (Text.contains text wanted),
    textPredicate "equals" "Whether both texts are equal" fun _ a b => pure (a == b),
    textPredicate "starts" "Whether the text starts with the prefix"
      fun _ text front => pure (Text.startsWith text front),
    textPredicate "ends" "Whether the text ends with the suffix"
      fun _ text back => pure (Text.endsWith text back),
    textPredicate "matches" "Whether the whole text matches the regular expression"
      fun call text pattern => do
        let p ← readPattern call (wholePattern pattern)
        pure (p.pattern.matchesIn text),
    textPredicate "finds" "Whether the regular expression matches somewhere in the text"
      fun call text pattern => do
        let p ← readPattern call pattern
        pure (p.pattern.matchesIn text),
    textMeasure "compare" "Lexicographic comparison: negative, zero or positive"
      Text.difference,
    textMeasure "index" "Character position of the search string in the text, or -1"
      position,
    length]

end RowFormula.Catalog
