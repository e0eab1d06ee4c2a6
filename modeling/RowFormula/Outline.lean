/-
# Outlines

An outline shows a tree with one part per line, each level indented by four columns, so
that a reader can see how a formula was understood.
-/

import RowFormula.Text.Escaped

namespace RowFormula

/-- A tree of named parts. -/
inductive Outline where
  | atom (text : String)
  /-- A name with parts in parentheses. -/
  | tuple (name : String) (parts : List Outline)
  /-- A name with named parts in braces. -/
  | record (name : String) (fields : List (String × Outline))
  | sequence (parts : List Outline)

namespace Outline

/-- A text in quotes. -/
def quoted (text : String) : Outline := atom (Text.quoted text)

/-- A name with a single part. -/
def single (name : String) (part : Outline) : Outline := tuple name [part]

/-- What may be absent. -/
def optional : Option Outline → Outline
  | some part => single "Some" part
  | none => atom "None"

/-- A line break and the columns of a level. -/
def lineBreak (level : Nat) : String :=
  "\n" ++ String.ofList (List.replicate (4 * level) ' ')

mutual

/-- The text of an outline at some level. -/
def text (level : Nat) : Outline → String
  | atom s => s
  | tuple name parts =>
    if parts.isEmpty then name
    else name ++ "(" ++ partsText (level + 1) parts ++ lineBreak level ++ ")"
  | record name fields =>
    if fields.isEmpty then name
    else name ++ " \x7b" ++ fieldsText (level + 1) fields ++ lineBreak level ++ "\x7d"
  | sequence parts =>
    if parts.isEmpty then "[]"
    else "[" ++ partsText (level + 1) parts ++ lineBreak level ++ "]"
  termination_by structural o => o

def partsText (level : Nat) : List Outline → String
  | [] => ""
  | part :: parts => lineBreak level ++ text level part ++ "," ++ partsText level parts
  termination_by structural parts => parts

def fieldsText (level : Nat) : List (String × Outline) → String
  | [] => ""
  | field :: fields => fieldText level field ++ fieldsText level fields
  termination_by structural fields => fields

def fieldText (level : Nat) : String × Outline → String
  | (name, part) => lineBreak level ++ name ++ ": " ++ text level part ++ ","
  termination_by structural field => field

end

end Outline

end RowFormula
