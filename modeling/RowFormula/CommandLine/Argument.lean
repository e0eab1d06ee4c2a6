/-
# Arguments that describe a row

On a command line an attribute is written as its name, its kind and a text, a macro as
its name and text, and a parameter as operator, parameter and text.  Only the first
equals sign separates, so texts may hold more of them.
-/

import RowFormula.Calendar.DatePattern.Reader
import RowFormula.Calendar.DateText
import RowFormula.Number.Read
import RowFormula.Text.Search
import RowFormula.Value

namespace RowFormula.CommandLine

/-- Why an argument cannot be read. -/
inductive ArgumentFault where
  | malformedAttribute (text : String)
  | unknownKind (name : String)
  | badValue (text : String) (kind : Kind)
  | malformedMacro (text : String)
  | malformedParameter (text : String)
  deriving DecidableEq, Repr

def ArgumentFault.message : ArgumentFault → String
  | malformedAttribute text => "expected NAME:KIND=VALUE, got '" ++ text ++ "'"
  | unknownKind name => "unknown value kind '" ++ name ++ "'"
  | badValue text kind => "cannot read '" ++ text ++ "' as " ++ kind.name
  | malformedMacro text => "expected NAME=VALUE, got '" ++ text ++ "'"
  | malformedParameter text => "expected OPERATOR.PARAMETER=VALUE, got '" ++ text ++ "'"

/-- The form of an argument with a time of day. -/
def dateTimeForm : String := "%Y-%m-%d %H:%M:%S"

/-- The form of an argument that is a bare date. -/
def dateForm : String := "%Y-%m-%d"

/-- Reads a date: the form for exchange, a date with a time of day, or a bare date. -/
def readDate? (text : String) : Option Calendar.Instant :=
  (Calendar.DatePattern.readExchange? text).or
    ((Calendar.readForms? Calendar.DatePattern.readDateTime? [dateTimeForm] text).or
      (Calendar.readForms? Calendar.DatePattern.readDate? [dateForm] text))

/-- Reads a text as a value that is there.  Blanks around it count only in texts. -/
def readPresent? (kind : Kind) (text : String) : Option Value :=
  match kind with
  | .integer => (Number.read? (Text.trim text)).map .integer
  | .double => (Number.read? (Text.trim text)).map .double
  | .boolean =>
    match Text.asciiLower (Text.trim text) with
    | "true" => some (.ofBool true)
    | "false" => some (.ofBool false)
    | _ => none
  | .string => some (.ofString text)
  | .date => (readDate? (Text.trim text)).map .ofInstant

/-- Reads a text as a value.  No text at all and a question mark stand for the missing
value. -/
def readValue (kind : Kind) (text : String) : Except ArgumentFault Value :=
  if text = "" ∨ text = "?" then .ok (.missing kind)
  else
    match readPresent? kind text with
    | some v => .ok v
    | none => .error (.badValue text kind)

/-- Reads an attribute.  Its name may hold colons, since the last one separates. -/
def readAttribute (arg : String) : Except ArgumentFault (String × Value) :=
  match (Text.splitFirst? '=' arg).bind fun p => (Text.splitLast? ':' p.1).map (·, p.2) with
  | none => .error (.malformedAttribute arg)
  | some ((name, kind), text) =>
    if name = "" then .error (.malformedAttribute arg)
    else
      match Kind.ofName? kind with
      | none => .error (.unknownKind kind)
      | some kind => (readValue kind text).map (name, ·)

/-- Reads a macro. -/
def readMacro (arg : String) : Except ArgumentFault (String × String) :=
  match Text.splitFirst? '=' arg with
  | none => .error (.malformedMacro arg)
  | some (name, text) =>
    if name = "" then .error (.malformedMacro arg) else .ok (name, text)

/-- Reads a parameter.  The name of its operator may hold dots, since the last one
separates. -/
def readParameter (arg : String) : Except ArgumentFault ((String × String) × String) :=
  match (Text.splitFirst? '=' arg).bind fun p => (Text.splitLast? '.' p.1).map (·, p.2) with
  | none => .error (.malformedParameter arg)
  | some ((operator, parameter), text) =>
    if operator = "" ∨ parameter = "" then .error (.malformedParameter arg)
    else .ok ((operator, parameter), text)

end RowFormula.CommandLine
