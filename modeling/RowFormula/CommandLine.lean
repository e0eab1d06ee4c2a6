/-
# The command line

The command line evaluates one formula against one row, or every line of the standard
input.  Results go to the standard output and reports of errors to the standard error.
The status differs from zero if the arguments cannot be read, or if an evaluation breaks
off, which ends the program.
-/

import RowFormula.CommandLine.Settings
import RowFormula.Engine
import RowFormula.Outline.Term
import RowFormula.Report
import RowFormula.Text.Json

namespace RowFormula.CommandLine

/-- What is written to the standard output and to the standard error. -/
structure Written where
  output : String := ""
  errors : String := ""
  /-- Whether an evaluation broke off, so that nothing follows. -/
  broken : Bool := false
  deriving DecidableEq, Repr, Inhabited

namespace Written

def append (a b : Written) : Written :=
  if a.broken then a else ⟨a.output ++ b.output, a.errors ++ b.errors, b.broken⟩

/-- A line of output. -/
def line (text : String) : Written := { output := text ++ "\n" }

/-- The report of an error, in colours.  An evaluation that broke off leaves a plain
text instead. -/
def report (e : Error) : Written :=
  if e.breaksOff then { errors := e.text ++ "\n", broken := true }
  else { errors := Report.ofError true e }

/-- The status after an evaluation that broke off. -/
def brokenStatus : Nat := 101

/-- The status of a program that has written this. -/
def status (w : Written) : Nat := if w.broken then brokenStatus else 0

end Written

/-- A value in JSON: its kind, and what it holds if that has a form there. -/
def jsonOfValue (v : Value) : String :=
  let content :=
    match v with
    | .integer x => Number.jsonText? x
    | .double x => Number.jsonText? x
    | .boolean b => b.map Value.boolText
    | .string s => s.map Text.jsonQuoted
    | .date d => d.map fun i => Text.jsonQuoted (Calendar.Instant.exchangeText i)
  Text.jsonObject [("kind", Text.jsonQuoted v.kind.name), ("value", content.getD "null")]

/-- A function as one line of a listing. -/
def listingLine (json : Bool) (f : Function) : String :=
  if json then
    Text.jsonObject
      [("category", Text.jsonQuoted f.category.text),
        ("description", Text.jsonQuoted f.description), ("name", Text.jsonQuoted f.name),
        ("synopsis", Text.jsonQuoted f.synopsis)]
  else Text.padRight 40 f.synopsis ++ " " ++ f.category.text ++ " " ++ f.description

namespace Settings

/-- The row that the arguments describe.  A later attribute takes the place of an
earlier one with its name. -/
def row (s : Settings) : Row := Row.ofList s.attributes

/-- The engine that the arguments describe. -/
def engine (s : Settings) : Engine where
  macros := Table.ofList s.macros
  parameters := Table.ofList s.parameters

/-- A heading, an outline and an empty line. -/
def shownOutline (heading : String) (o : Outline) : Written :=
  { output := "=== " ++ heading ++ " ===\n" ++ o.text 0 ++ "\n\n" }

/-- How a result is written. -/
def shownValue (s : Settings) (v : Value) : Written :=
  Written.line (if s.json then jsonOfValue v else v.shown ++ " (" ++ v.kind.name ++ ")")

/-- Compiles and runs a formula. -/
def evaluated (s : Settings) (now : Calendar.Instant) (source : String) :
    StateM Random.Draws Written := do
  let ctx := s.engine.context now s.row
  match Formula.compile ctx source with
  | .error e => pure (Written.report e)
  | .ok f =>
    let shown :=
      if s.showsTerm then shownOutline "Resolved Expression" (Outline.ofTerm f.term) else {}
    match ← ExceptT.run (f.run ctx) with
    | .ok v => pure (shown.append (s.shownValue v))
    | .error e => pure (shown.append (Written.report (.failed e)))

/-- Evaluates one line.  A blank line is passed over. -/
def interpret (s : Settings) (now : Calendar.Instant) (source : String) :
    StateM Random.Draws Written :=
  if (Text.trim source).isEmpty then pure {}
  else if s.showsTree then
    match Tree.parse Tree.defaultMaxDepth source with
    | .error e => pure (Written.report (.unreadable e))
    | .ok tree => do
      let result ← s.evaluated now source
      pure ((shownOutline "Parsed Tree" (Outline.ofTree tree)).append result)
  else s.evaluated now source

/-- The listing of all functions. -/
def listing (s : Settings) : Written :=
  s.engine.functions.sorted.foldl (fun w f => w.append (Written.line (listingLine s.json f))) {}

/-- The generators that the arguments ask for; without a seed they start from the
one given. -/
def draws (s : Settings) (entropy : UInt64) : Random.Draws :=
  Random.Draws.ofSeed (s.seed.getD entropy)

end Settings

/-- A line without the characters that end it. -/
def withoutEnd (line : String) : String :=
  match line.toList.reverse with
  | '\n' :: '\r' :: cs => String.ofList cs.reverse
  | '\n' :: cs => String.ofList cs.reverse
  | _ => line

/-- Cuts an input into its lines.  Only a line feed ends a line. -/
def inputLines (input : String) : List String :=
  (cut input.toList).map fun cs => withoutEnd (String.ofList cs)
where
  /-- Cuts behind every line feed. -/
  cut : List Char → List (List Char)
    | [] => []
    | c :: cs =>
      if c = '\n' then [c] :: cut cs
      else
        match cut cs with
        | [] => [[c]]
        | line :: lines => (c :: line) :: lines

/-- The status after arguments that cannot be read. -/
def misuseStatus : Nat := 2

/-- What stops a command line before any formula is looked at. -/
def stopped : Stop → Nat × Written
  | .help => (0, { output := helpText })
  | .misuse m => (misuseStatus, { errors := m.text })

/-- Evaluates lines from first to last. -/
def interpretAll (s : Settings) (now : Calendar.Instant) :
    List String → StateM Random.Draws Written
  | [] => pure {}
  | line :: lines => do
    let first ← s.interpret now line
    let others ← interpretAll s now lines
    pure (first.append others)

/-- Follows a command line: the status, and what is written. -/
def run (now : Calendar.Instant) (entropy : UInt64) (args : List String) (input : String) :
    Nat × Written :=
  match Settings.read args with
  | .error stop => stopped stop
  | .ok s =>
    if s.listsFunctions then (0, s.listing)
    else
      let lines :=
        match s.formula with
        | some formula => [formula]
        | none => inputLines input
      let w := (interpretAll s now lines (s.draws entropy)).1
      (w.status, w)

end RowFormula.CommandLine
