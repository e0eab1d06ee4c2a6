/-
# Functions that make texts out of texts

Positions and lengths count characters.  They are given as numbers, of which the whole
part counts.
-/

import RowFormula.Catalog.Inspection
import RowFormula.Pattern.Replacement
import RowFormula.Text.Case
import RowFormula.Text.Entity

namespace RowFormula.Catalog

/-- A count of characters; nothing for the missing number. -/
def count? (x : Float) : Option Int :=
  if x.isNaN then none else some (Number.toInt64 x)

/-- The whole number of characters to keep; none of them for a negative count. -/
def front (text : String) (n : Int) : String :=
  Text.front n.toNat text

def back (text : String) (n : Int) : String :=
  Text.back n.toNat text

/-- The character at a position, if there is one. -/
def charAt? (text : String) (n : Int) : Option String :=
  if n < 0 then none else (text.toList[n.toNat]?).map String.singleton

/-- A part of a text by position and length, or the first position that lies outside of
the text.  Counts beyond 64 bits stand for the greatest of them. -/
def cut (text : String) (start length : Int) : Except Int String :=
  let stop := Number.clampInt64 (start + length)
  if start < 0 ∨ (text.length : Int) < start then .error start
  else if length < 0 ∨ (text.length : Int) < stop then .error stop
  else .ok (Text.slice start.toNat length.toNat text)

/-- A text made from one text. -/
def textFunction (name description : String) (f : String → String) : Function where
  name := name
  category := .stringTransformation
  description := description
  signature := .all [.single .string]
  result := .fixed .string
  body := fun _ args => pure (.string ((textAt? args 0).map f))

/-- A text made from a text and a count. -/
def countFunction (name description : String) (f : String → Int → Option String) :
    Function where
  name := name
  category := .stringTransformation
  description := description
  signature := .all [.single .string, .numeric]
  result := .fixed .string
  body := fun _ args =>
    match textAt? args 0, count? (numberAt args 1) with
    | some text, some n => pure (.string (f text n))
    | _, _ => pure (.missing .string)

/-- A text made from three texts. -/
def replacingFunction (name description : String)
    (f : Call → (text wanted replacement : String) → Evaluation EvaluationFault String) :
    Function where
  name := name
  category := .stringTransformation
  description := description
  signature := .all [.single .string, .single .string, .single .string]
  result := .fixed .string
  body := fun call args =>
    match textAt? args 0, textAt? args 1, textAt? args 2 with
    | some text, some wanted, some replacement => do
      pure (.ofString (← f call text wanted replacement))
    | _, _, _ => pure (.missing .string)

/-- Joins texts.  Missing texts contribute nothing unless there are only missing ones. -/
def joined (args : List Value) : Value :=
  if !args.isEmpty && args.all Value.isMissing then .missing .string
  else .ofString (String.join (args.filterMap Value.string?))

/-- Concatenation. -/
def concatenation : Function where
  name := "concat"
  category := .stringTransformation
  description := "Concatenates its arguments; missing arguments contribute nothing"
  signature := .many 0 (.single .string)
  result := .fixed .string
  body := fun _ args => pure (joined args)

/-- A part by position and length, which must lie within the text. -/
def cutting : Function where
  name := "cut"
  category := .stringTransformation
  description := "Substring of a length from a start index; fails when out of range"
  signature := .all [.single .string, .numeric, .numeric]
  result := .fixed .string
  body := fun call args =>
    match textAt? args 0, count? (numberAt args 1), count? (numberAt args 2) with
    | some text, some start, some length =>
      match cut text start length with
      | .ok part => pure (.ofString part)
      | .error i => call.reject (.indexOutOfRange (Number.ofInt i) text.length)
    | _, _, _ => pure (.missing .string)

/-- Joining, replacing, cutting and changing texts. -/
def stringTransformation : List Function :=
  [concatenation,
    replacingFunction "replaceAll"
      "Replaces every match of a regular expression; $1 refers to groups"
      fun call text pattern replacement => do
        pure (Pattern.replaceAll (← readPattern call pattern) text replacement),
    replacingFunction "replace" "Replaces every occurrence of a literal search string"
      fun _ text wanted replacement => pure (Text.replace text wanted replacement),
    cutting,
    countFunction "prefix" "The first n characters, or the whole text if shorter"
      fun text n => some (front text n),
    countFunction "suffix" "The last n characters, or the whole text if shorter"
      fun text n => some (back text n),
    countFunction "char" "The character at an index; missing when out of range" charAt?,
    textFunction "lower" "Lower case" Text.lower,
    textFunction "upper" "Upper case" Text.upper,
    textFunction "trim" "Removes leading and trailing whitespace" Text.trim,
    textFunction "escape_html" "Escapes the characters HTML treats specially"
      Text.escapeMarkup]

end RowFormula.Catalog
