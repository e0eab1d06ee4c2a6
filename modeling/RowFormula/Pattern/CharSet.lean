/-
# Sets of characters in patterns

A pattern matches single characters by membership in a set.  Sets are kept as they
are described, and membership is decided from the description.
-/

import RowFormula.Text.Case.Fold
import RowFormula.Text.Category
import RowFormula.Text.Script

namespace RowFormula.Pattern

/-- Operations between two sets. -/
inductive SetOp where
  | intersection
  | difference
  | symmetricDifference
  deriving DecidableEq, Repr

/-- Characters that have a property. -/
inductive Property where
  | word
  | digit
  | blank
  | alphabetic
  | uppercase
  | lowercase
  | category (categories : List Text.Category)
  | script (name : String)
  deriving DecidableEq, Repr

namespace Property

def contains : Property → Char → Bool
  | word, c => Text.isWordChar c
  | digit, c => Text.isDecimalDigit c
  | blank, c => Text.isBlank c
  | alphabetic, c => Text.isAlphabetic c
  | uppercase, c => Text.isUppercase c
  | lowercase, c => Text.isLowercase c
  | category categories, c => Text.isOf categories c
  | script name, c => ((Text.Script.all.lookup name).map fun rs => Text.inRanges rs c).getD false

end Property

/-- A set of characters. -/
inductive CharSet where
  | empty
  | full
  | range (first last : Char)
  | ofProperty (p : Property)
  | union (a b : CharSet)
  | combined (op : SetOp) (a b : CharSet)
  | complement (a : CharSet)
  /-- All characters that differ from a member at most in case. -/
  | caseless (a : CharSet)
  deriving DecidableEq, Repr, Inhabited

namespace CharSet

def single (c : Char) : CharSet := range c c

def contains : CharSet → Char → Bool
  | empty, _ => false
  | full, _ => true
  | range first last, c => first ≤ c && c ≤ last
  | ofProperty p, c => p.contains c
  | union a b, c => a.contains c || b.contains c
  | combined .intersection a b, c => a.contains c && b.contains c
  | combined .difference a b, c => a.contains c && !b.contains c
  | combined .symmetricDifference a b, c => a.contains c != b.contains c
  | complement a, c => !a.contains c
  | caseless a, c => (Text.Case.caseVariants c).any a.contains

def unionOf (sets : List CharSet) : CharSet :=
  sets.foldl union empty

/-- The complement if `negated` holds. -/
def negatedIf (negated : Bool) (s : CharSet) : CharSet :=
  if negated then complement s else s

/-- The set without regard to case if `insensitive` holds. -/
def caselessIf (insensitive : Bool) (s : CharSet) : CharSet :=
  if insensitive then caseless s else s

/-- Ranges of ASCII characters. -/
def ofRanges (ranges : List (Char × Char)) : CharSet :=
  unionOf (ranges.map fun (a, b) => range a b)

def asciiDigit : CharSet := range '0' '9'

def asciiWord : CharSet := ofRanges [('a', 'z'), ('A', 'Z'), ('0', '9'), ('_', '_')]

def asciiBlank : CharSet := ofRanges [('\t', '\r'), (' ', ' ')]

/-- The ASCII classes that can be named inside brackets. -/
def ofClassName? (name : String) : Option CharSet :=
  match name with
  | "alnum" => some (ofRanges [('0', '9'), ('A', 'Z'), ('a', 'z')])
  | "alpha" => some (ofRanges [('A', 'Z'), ('a', 'z')])
  | "ascii" => some (range '\x00' '\x7f')
  | "blank" => some (ofRanges [('\t', '\t'), (' ', ' ')])
  | "cntrl" => some (ofRanges [('\x00', '\x1f'), ('\x7f', '\x7f')])
  | "digit" => some asciiDigit
  | "graph" => some (range '!' '~')
  | "lower" => some (range 'a' 'z')
  | "print" => some (range ' ' '~')
  | "punct" => some (ofRanges [('!', '/'), (':', '@'), ('[', '\x60'), ('\x7b', '~')])
  | "space" => some asciiBlank
  | "upper" => some (range 'A' 'Z')
  | "word" => some asciiWord
  | "xdigit" => some (ofRanges [('0', '9'), ('A', 'F'), ('a', 'f')])
  | _ => none

/-- Names of properties are compared without case, blanks, hyphens and underscores,
and may start with `is`. -/
def plainName (name : String) : String :=
  let cs := (name.toList.filter fun c => !(c == ' ' || c == '-' || c == '_')).map Char.toLower
  match cs with
  | 'i' :: 's' :: c :: rest => String.ofList (c :: rest)
  | cs => String.ofList cs

/-- The characters with a property by name. -/
def ofPropertyName? (name : String) : Option CharSet :=
  match plainName name with
  | "any" => some full
  | "ascii" => some (range '\x00' '\x7f')
  | "assigned" => some (complement (ofProperty (.category [.unassigned])))
  | "alphabetic" | "alpha" => some (ofProperty .alphabetic)
  | "uppercase" | "upper" => some (ofProperty .uppercase)
  | "lowercase" | "lower" => some (ofProperty .lowercase)
  | "whitespace" | "wspace" | "space" => some (ofProperty .blank)
  | plain =>
    match Text.Category.ofName? plain with
    | some categories => some (ofProperty (.category categories))
    | none =>
      if (Text.Script.all.lookup plain).isSome then some (ofProperty (.script plain)) else none

/-- The characters whose property `key` has the value `name`. -/
def ofPropertyValue? (key name : String) : Option CharSet :=
  let plain := plainName name
  match plainName key with
  | "gc" | "generalcategory" => (Text.Category.ofName? plain).map fun cs => ofProperty (.category cs)
  | "sc" | "script" | "scx" | "scriptextensions" =>
    if (Text.Script.all.lookup plain).isSome then some (ofProperty (.script plain)) else none
  | _ => none

end CharSet

end RowFormula.Pattern
