/-
# Functions

A function has a signature, a rule for the kind of its result, and a body that is
given the arguments after they were evaluated.  What a body may ask of the formula
around it is handed to it as part of the call, so that functions can be described
without saying how formulas are evaluated.
-/

import RowFormula.Error
import RowFormula.Random.Draws
import RowFormula.Value

namespace RowFormula

/-- A computation that may draw random numbers and may fail.  Numbers drawn before a
failure stay drawn. -/
abbrev Evaluation (ε α : Type) : Type := ExceptT ε (StateM Random.Draws) α

namespace Evaluation

/-- Changes the error of a failure. -/
def mapError {ε ε' α : Type} (f : ε → ε') (x : Evaluation ε α) : Evaluation ε' α :=
  ExceptT.adapt f x

/-- A computation that has its result already. -/
def ofExcept {ε α : Type} (x : Except ε α) : Evaluation ε α :=
  ExceptT.mk (pure x)

/-- The value of an option, or else a failure. -/
def ofOption {ε α : Type} (error : ε) (x : Option α) : Evaluation ε α :=
  match x with
  | some a => pure a
  | none => throw error

end Evaluation

/-- The section of a listing in which a function stands. -/
inductive Category where
  | arithmetic
  | comparison
  | logical
  | bitwise
  | conversion
  | date
  | mathematical
  | rounding
  | statistical
  | stringInformation
  | stringTransformation
  | trigonometric
  | process
  | indirection
  deriving DecidableEq, Repr, Inhabited

def Category.text : Category → String
  | arithmetic => "arithmetic"
  | comparison => "comparison"
  | logical => "logical"
  | bitwise => "bitwise"
  | conversion => "conversion"
  | date => "date"
  | mathematical => "mathematical"
  | rounding => "rounding"
  | statistical => "statistical"
  | stringInformation => "string information"
  | stringTransformation => "string transformation"
  | trigonometric => "trigonometric"
  | process => "process"
  | indirection => "indirection"

/-- What is known about an argument before any row is seen. -/
structure ArgInfo where
  kind : Kind
  /-- The value, if it does not depend on the row. -/
  constant : Option Value := none
  deriving DecidableEq, Repr

/-- What a rule may ask in order to tell the kind of a call.  A rule can see the row for
which a formula is compiled, with its values, although the formula may run against other
rows later. -/
structure KindRequest where
  args : List ArgInfo
  /-- The kind of an attribute. -/
  attributeKind? : String → Option Kind
  /-- The value of an attribute while the formula is compiled. -/
  attribute? : String → Option Value
  macroText? : String → Option String
  parameter? : (operator parameter : String) → Option String
  /-- How many formulas the compiled one is nested in. -/
  nesting : Nat
  /-- What a rule fails with that reads an argument at a position where there is none. -/
  noArgument : (position count : Nat) → KindFault
  /-- The kind of a text as a formula one level deeper. -/
  formulaKind : String → Except KindFault Kind

namespace KindRequest

/-- The text of a constant argument; nothing if the argument is not constant, no text
or missing. -/
def constantText? (request : KindRequest) (position : Nat) : Option String := do
  (← (← request.args[position]?).constant).string?

/-- The argument at a position that must be there. -/
def argument (request : KindRequest) (position : Nat) : Except KindFault ArgInfo :=
  match request.args[position]? with
  | some arg => .ok arg
  | none => .error (request.noArgument position request.args.length)

end KindRequest

/-- How the kind of a call follows from its arguments. -/
inductive ResultRule where
  | fixed (kind : Kind)
  /-- Whole numbers if all arguments are. -/
  | promoted
  /-- One kind for a single argument, another for more of them. -/
  | byArity (one more : Kind)
  | custom (rule : KindRequest → Except KindFault Kind)

namespace ResultRule

def resolve (rule : ResultRule) (request : KindRequest) : Except KindFault Kind :=
  match rule with
  | fixed kind => .ok kind
  | promoted => .ok (Kind.promote (request.args.map ArgInfo.kind))
  | byArity one more => .ok (if request.args.length ≤ 1 then one else more)
  | custom rule => rule request

end ResultRule

/-- What the body of a function is given besides the arguments. -/
structure Call where
  /-- The name under which the function is known. -/
  name : String
  /-- The kind that the formula expects. -/
  resultKind : Kind
  /-- How many formulas this one is nested in. -/
  nesting : Nat
  /-- The time at which the formula is evaluated. -/
  now : Calendar.Instant
  attribute? : String → Option Value
  macroText? : String → Option String
  parameter? : (operator parameter : String) → Option String
  random : (seed : Option Int) → Random.Draws → Float × Random.Draws
  /-- What a body fails with that reads an argument at a position where there is none. -/
  noArgument : (position count : Nat) → EvaluationFault
  /-- Evaluates a text as a formula one level deeper. -/
  evaluateFormula : String → Evaluation EvaluationFault Value

/-- What the body of a function does. -/
abbrev Body : Type := Call → List Value → Evaluation EvaluationFault Value

namespace Call

/-- Draws a random number. -/
def draw (call : Call) (seed : Option Int) : Evaluation EvaluationFault Float :=
  ExceptT.mk fun draws =>
    let (x, draws) := call.random seed draws
    (.ok x, draws)

/-- Fails because the body rejects its arguments. -/
def reject {α : Type} (call : Call) (cause : Rejection) : Evaluation EvaluationFault α :=
  throw (.rejected call.name cause)

/-- The value of an option; where there is none, the body rejects its arguments. -/
def require {α : Type} (call : Call) (cause : Rejection) (x : Option α) :
    Evaluation EvaluationFault α :=
  Evaluation.ofOption (.rejected call.name cause) x

/-- The argument at a position that must be there. -/
def argument (call : Call) (args : List Value) (position : Nat) :
    Evaluation EvaluationFault Value :=
  Evaluation.ofOption (call.noArgument position args.length) args[position]?

/-- Converts a value to the kind that the formula expects. -/
def coerce (call : Call) (v : Value) : Evaluation EvaluationFault Value :=
  Evaluation.ofOption (.kindMismatch call.resultKind v.kind) (v.coerce? call.resultKind)

end Call

/-- A function that formulas can call. -/
structure Function where
  name : String
  category : Category
  description : String := ""
  signature : Signature
  result : ResultRule := .fixed .double
  body : Body
  /-- Tells functions apart that were registered under one name. -/
  serial : Nat := 0

namespace Function

/-- Name and parameters as a listing shows them. -/
def synopsis (f : Function) : String := f.name ++ f.signature.text

end Function

/-! ### Reading arguments -/

/-- The number at a position; the missing one if no number stands there. -/
def numberAt (args : List Value) (position : Nat) : Float :=
  ((args[position]?).map Value.toNumber).getD Number.nan

/-- The text at a position; nothing if it is missing or no text stands there. -/
def textAt? (args : List Value) (position : Nat) : Option String := do
  (← args[position]?).string?

/-- The date at a position; nothing if it is missing or no date stands there. -/
def instantAt? (args : List Value) (position : Nat) : Option Calendar.Instant := do
  (← args[position]?).instant?

end RowFormula
