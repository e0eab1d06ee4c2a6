/-
# The arguments of a command line

Arguments are read from left to right.  What begins with a hyphen is an option, so that
the value of an option must not begin with one unless it is attached by an equals sign.
Two hyphens end the options.
-/

import RowFormula.CommandLine.Argument
import RowFormula.Number.Powers

namespace RowFormula.CommandLine

/-- What a command line asks for. -/
structure Settings where
  attributes : List (String × Value) := []
  macros : List (String × String) := []
  parameters : List ((String × String) × String) := []
  seed : Option UInt64 := none
  /-- Whether the syntax tree is shown. -/
  showsTree : Bool := false
  /-- Whether the resolved formula is shown. -/
  showsTerm : Bool := false
  json : Bool := false
  listsFunctions : Bool := false
  formula : Option String := none
  deriving DecidableEq, Repr, Inhabited

/-- The options that take a value. -/
inductive ValueOption where
  | attr
  | macroText
  | param
  | seed
  deriving DecidableEq, Repr

/-- The options that take no value. -/
inductive Flag where
  | debugParse
  | debugType
  | json
  | listFunctions
  | help
  deriving DecidableEq, Repr

def ValueOption.name : ValueOption → String
  | attr => "attr"
  | macroText => "macro"
  | param => "param"
  | seed => "seed"

/-- What messages write for the value of an option. -/
def ValueOption.valueName : ValueOption → String
  | attr => "NAME:KIND=VALUE"
  | macroText => "NAME=VALUE"
  | param => "OPERATOR.PARAMETER=VALUE"
  | seed => "SEED"

/-- An option and its value, as messages mention them. -/
def ValueOption.usage (o : ValueOption) : String :=
  "--" ++ o.name ++ " <" ++ o.valueName ++ ">"

def Flag.name : Flag → String
  | debugParse => "debug-parse"
  | debugType => "debug-type"
  | json => "json"
  | listFunctions => "list-functions"
  | help => "help"

/-- An option with a name, by what it takes. -/
inductive Named where
  | value (o : ValueOption)
  | flag (f : Flag)
  deriving DecidableEq, Repr

/-- The option of a name. -/
def Named.ofName? (name : String) : Option Named :=
  let options := [ValueOption.attr, .macroText, .param, .seed]
  let flags := [Flag.debugParse, .debugType, .json, .listFunctions, .help]
  ((options.find? fun o => o.name == name).map .value).or
    ((flags.find? fun f => f.name == name).map .flag)

/-- Why a command line cannot be followed. -/
inductive Misuse where
  | unexpectedArgument (arg : String)
  | unexpectedValue (flag : Flag) (text : String)
  | missingValue (option : ValueOption)
  | repeatedOption (usage : String)
  | badValue (option : ValueOption) (text detail : String)
  deriving DecidableEq, Repr

/-- Why the arguments are not read to their end. -/
inductive Stop where
  | help
  | misuse (m : Misuse)
  deriving DecidableEq, Repr

def usageText : String := "Usage: formula [OPTIONS] [EXPRESSION]\n"

namespace Misuse

def message : Misuse → String
  | unexpectedArgument arg => "unexpected argument '" ++ arg ++ "' found"
  | unexpectedValue flag text =>
    "unexpected value '" ++ text ++ "' for '--" ++ flag.name ++ "' found; no more were expected"
  | missingValue option =>
    "a value is required for '" ++ option.usage ++ "' but none was supplied"
  | repeatedOption usage => "the argument '" ++ usage ++ "' cannot be used multiple times"
  | badValue option text detail =>
    "invalid value '" ++ text ++ "' for '" ++ option.usage ++ "': " ++ detail

/-- The message, with how to go on. -/
def text (m : Misuse) : String :=
  "error: " ++ m.message ++ "\n\n" ++ usageText ++ "\nFor more information, try '--help'.\n"

end Misuse

/-- Reads a seed: a number of 64 bits, which a plus sign may precede. -/
def readSeed? (text : String) : Option UInt64 :=
  let digits :=
    match text.toList with
    | '+' :: cs => cs
    | cs => cs
  let n := digits.foldl (fun n c => 10 * n + (c.toNat - '0'.toNat)) 0
  if !digits.isEmpty && digits.all Char.isDigit && n < Number.twoTo 64 then some (UInt64.ofNat n)
  else none

/-- What reading arguments can result in. -/
abbrev Reading (α : Type) : Type := Except Stop α

def misuse {α : Type} (m : Misuse) : Reading α := .error (.misuse m)

/-- How far the arguments are read. -/
structure Progress where
  settings : Settings := {}
  /-- An option that still waits for its value. -/
  pending : Option ValueOption := none
  /-- Whether the options have ended. -/
  ended : Bool := false
  deriving DecidableEq, Repr, Inhabited

namespace Settings

/-- What an argument stands for, or its fault. -/
def valueOrFault {α : Type} (option : ValueOption) (text : String)
    (x : Except ArgumentFault α) : Reading α :=
  match x with
  | .ok a => .ok a
  | .error fault => misuse (.badValue option text fault.message)

/-- Enters the value of an option. -/
def enter (s : Settings) (option : ValueOption) (text : String) : Reading Settings :=
  match option with
  | .attr => do
    let a ← valueOrFault option text (readAttribute text)
    pure { s with attributes := s.attributes ++ [a] }
  | .macroText => do
    let m ← valueOrFault option text (readMacro text)
    pure { s with macros := s.macros ++ [m] }
  | .param => do
    let p ← valueOrFault option text (readParameter text)
    pure { s with parameters := s.parameters ++ [p] }
  | .seed =>
    if s.seed.isSome then misuse (.repeatedOption option.usage)
    else
      match readSeed? text with
      | some seed => pure { s with seed := some seed }
      | none => misuse (.badValue option text "invalid digit found in string")

/-- Sets a flag, which must not be set twice. -/
def raise (s : Settings) (flag : Flag) : Reading Settings :=
  let unlessSet (already : Bool) (s : Settings) : Reading Settings :=
    if already then misuse (.repeatedOption ("--" ++ flag.name)) else pure s
  match flag with
  | .help => .error .help
  | .debugParse => unlessSet s.showsTree { s with showsTree := true }
  | .debugType => unlessSet s.showsTerm { s with showsTerm := true }
  | .json => unlessSet s.json { s with json := true }
  | .listFunctions => unlessSet s.listsFunctions { s with listsFunctions := true }

end Settings

namespace Progress

/-- Makes sure that no option waits for its value. -/
def settled (p : Progress) : Reading Settings :=
  match p.pending with
  | some option => misuse (.missingValue option)
  | none => pure p.settings

/-- Takes the formula, of which there is one. -/
def takeFormula (p : Progress) (arg : String) : Reading Progress := do
  let s ← p.settled
  if s.formula.isSome then misuse (.unexpectedArgument arg)
  else pure { p with settings := { s with formula := some arg } }

/-- Takes an option by name, with the value that may be attached to it. -/
def takeNamed (p : Progress) (arg name : String) (attached : Option String) :
    Reading Progress := do
  let s ← p.settled
  match Named.ofName? name, attached with
  | none, _ => misuse (.unexpectedArgument arg)
  | some (.value option), some text => pure { p with settings := ← s.enter option text }
  | some (.value option), none => pure { p with pending := some option }
  | some (.flag flag), some text => misuse (.unexpectedValue flag text)
  | some (.flag flag), none => pure { p with settings := ← s.raise flag }

/-- Takes an option of a single letter, of which there is only the one for help. -/
def takeShort (p : Progress) (arg : String) (letter : Char) : Reading Progress := do
  let s ← p.settled
  if letter = 'h' then pure { p with settings := ← s.raise .help }
  else misuse (.unexpectedArgument arg)

/-- Takes what is no option: the value that an option waits for, or the formula. -/
def takePlain (p : Progress) (arg : String) : Reading Progress :=
  match p.pending with
  | some option => do
    pure { p with settings := ← p.settings.enter option arg, pending := none }
  | none => p.takeFormula arg

/-- Takes one argument. -/
def take (p : Progress) (arg : String) : Reading Progress :=
  if p.ended then p.takeFormula arg
  else
    match arg.toList with
    | ['-', '-'] => pure { p with ended := true }
    | '-' :: '-' :: cs =>
      let name := String.ofList (cs.takeWhile (· != '='))
      p.takeNamed arg name ((Text.splitFirst? '=' (String.ofList cs)).map Prod.snd)
    | '-' :: letter :: _ => p.takeShort arg letter
    | _ => p.takePlain arg

end Progress

/-- Reads the arguments of a command line. -/
def Settings.read (args : List String) : Reading Settings := do
  (← args.foldlM Progress.take {}).settled

/-- The text that explains the command line. -/
def helpText : String :=
  "Evaluate formulas against a single row\n\n" ++ usageText ++ "\n" ++
    "Arguments:\n" ++
    "  [EXPRESSION]  Formula to evaluate (if not provided, reads from stdin)\n\n" ++
    "Options:\n" ++
    String.join
      [entry "      --attr <NAME:KIND=VALUE>"
          "Row attribute as NAME:KIND=VALUE (repeatable), e.g. age:integer=42",
        entry "      --macro <NAME=VALUE>" "Macro as NAME=VALUE (repeatable)",
        entry "      --param <OPERATOR.PARAMETER=VALUE>"
          "Process parameter as OPERATOR.PARAMETER=VALUE (repeatable)",
        entry "      --seed <SEED>" "Seed for rand(), for reproducible output",
        entry "      --debug-parse" "Print the parsed syntax tree (for debugging)",
        entry "      --debug-type" "Print the resolved expression (for debugging)",
        entry "      --json" "Print results as JSON objects with kind and value",
        entry "      --list-functions" "List the built-in functions and exit",
        entry "  -h, --help" "Print help"]
where
  /-- An option, and what it does on a line of its own. -/
  entry (option explanation : String) : String :=
    option ++ "\n          " ++ explanation ++ "\n"

end RowFormula.CommandLine
