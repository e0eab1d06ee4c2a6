/-
# Errors

A formula fails while it is read, while its kinds are worked out, or while it is
evaluated.  A formula that is itself evaluated by a formula carries its own error
inside the outer one, so the three stages refer to each other.

Errors are causes.  The wording of all of them stands in `Error.text` and the
functions around it.
-/

import RowFormula.Error.Syntax
import RowFormula.Number.Render
import RowFormula.Signature

namespace RowFormula

/-- Why the body of a function rejects its arguments. -/
inductive Rejection where
  | invalidRegex (pattern detail : String)
  | indexOutOfRange (index : Float) (length : Nat)
  | notWhole (x : Float)
  | unknownDateUnit (name : String)
  | invalidDatePattern (pattern : String)
  | unknownLocale (name : String)
  | unknownZone (name : String)
  | invalidArgument (text : String)
  /-- The body reaches a state that it does not provide for.  It breaks off, and the
  evaluation with it; this is no error that a formula could report. -/
  | brokenOff (text : String)
  deriving DecidableEq, Repr

/-- What is wrong with reading an argument that is not there. -/
def noArgumentText (position count : Nat) : String :=
  "index out of bounds: the len is " ++ Text.decimal count ++ " but the index is " ++
    Text.decimal position

namespace Rejection

/-- A body reads an argument, without asking whether it is there, at a position that its
call does not have. -/
def noArgument (position count : Nat) : Rejection :=
  .brokenOff (noArgumentText position count)

/-- Whether the body broke off instead of rejecting its arguments. -/
def breaksOff : Rejection → Bool
  | brokenOff _ => true
  | _ => false

def message : Rejection → String
  | invalidRegex pattern detail =>
    "invalid regular expression '" ++ pattern ++ "': " ++ detail
  | indexOutOfRange index length =>
    "index " ++ Number.messageText index ++ " is out of range for a string of length " ++
      Text.decimal length
  | notWhole x => "bitwise operations need whole numbers, got " ++ Number.messageText x
  | unknownDateUnit name => "unknown date unit '" ++ name ++ "'"
  | invalidDatePattern pattern => "invalid date pattern '" ++ pattern ++ "'"
  | unknownLocale name => "unknown locale '" ++ name ++ "'"
  | unknownZone name => "unknown time zone '" ++ name ++ "'"
  | invalidArgument text => text
  | brokenOff text => text

end Rejection

mutual

/-- Why a formula has no result. -/
inductive Error where
  /-- The text is not a formula. -/
  | unreadable (e : SyntaxError)
  /-- The kinds do not fit, or a name is unknown. -/
  | illTyped (e : TypeError)
  /-- Evaluation against a row failed. -/
  | failed (e : EvaluationError)

/-- A formula whose kinds do not fit, with the place of the fault. -/
inductive TypeError where
  | mk (fault : TypeFault) (source : String) (span : Span)

/-- What is wrong with the kinds or names of a formula. -/
inductive TypeFault where
  | operatorMismatch (op : InfixOp) (left right : Kind)
  | unaryMismatch (op : UnaryOp) (operand : Kind)
  /-- The position counts from zero. -/
  | argumentMismatch (function : String) (position : Nat) (expected : KindSet) (found : Kind)
  | arityMismatch (function : String) (expected : Arity) (found : Nat)
  | unknownFunction (name : String)
  /-- A bare name that is neither a constant nor an attribute. -/
  | unknownIdentifier (name : String)
  /-- A name in brackets that is no attribute. -/
  | unknownAttribute (name : String)
  | conditionMismatch (found : Kind)
  | undetermined (function : String) (reason : KindFault)

/-- Why a function cannot tell the kind of its result. -/
inductive KindFault where
  | kindNotConstant
  | kindNotText (found : Kind)
  | unknownKindName (name : String)
  | formulaNotConstant
  | nestingTooDeep (maxNesting : Nat)
  | invalidFormula (formula : String) (error : Error)
  | nameNotConstant
  | unknownAttribute (name : String)
  /-- A reason in the words of a function that is not built in. -/
  | other (text : String)

/-- A failed evaluation, with the place of the fault where one is known. -/
inductive EvaluationError where
  | mk (fault : EvaluationFault) (span : Option Span) (source : Option String)

/-- What went wrong in an evaluation. -/
inductive EvaluationFault where
  | unknownAttribute (name : String)
  | unknownMacro (name : String)
  | unknownParameter (operator parameter : String)
  /-- A value cannot be converted to the kind that is expected. -/
  | kindMismatch (expected found : Kind)
  | depthExceeded (depth maxDepth : Nat)
  | nestingTooDeep (maxNesting : Nat)
  /-- A formula evaluated by this one failed. -/
  | nested (formula : String) (error : Error)
  /-- A function rejected its arguments. -/
  | rejected (function : String) (cause : Rejection)

end

/-- A rule reads an argument, without asking whether it is there, at a position that its
request does not have. -/
def KindFault.noArgument (position count : Nat) : KindFault :=
  .other (noArgumentText position count)

instance : Inhabited Error := ⟨.unreadable ⟨.tooDeep 0, "", ⟨0, 0⟩⟩⟩

namespace TypeFault

/-- Advice on the operands of an operator. -/
def operatorHelp : InfixOp → String
  | .comparison .eq | .comparison .ne => "Arithmetic operators take numbers"
  | .comparison _ => "Only two numbers or two strings can be ordered"
  | .logical _ => "Logical operators take numbers or booleans"
  | .arithmetic .add => "'+' adds numbers or concatenates when either side is a string"
  | .arithmetic _ => "Arithmetic operators take numbers"

def code : TypeFault → String
  | operatorMismatch .. => "E001"
  | unaryMismatch .. => "E002"
  | argumentMismatch .. => "E003"
  | arityMismatch .. => "E004"
  | unknownFunction _ => "E005"
  | unknownIdentifier _ => "E006"
  | unknownAttribute _ => "E007"
  | conditionMismatch _ => "E008"
  | undetermined .. => "E009"

def help : TypeFault → Option String
  | operatorMismatch op _ _ => some (operatorHelp op)
  | arityMismatch .. => some "Check the number of arguments in the function call"
  | unknownFunction _ => some "Check the function name for typos"
  | unknownIdentifier _ =>
    some "Attribute names that are not identifiers can be written as [name]"
  | _ => none

end TypeFault

namespace EvaluationFault

def code : EvaluationFault → String
  | unknownAttribute _ => "R001"
  | unknownMacro _ => "R002"
  | unknownParameter .. => "R003"
  | kindMismatch .. => "R004"
  | depthExceeded .. => "R005"
  | nestingTooDeep _ => "R006"
  | nested .. => "R007"
  | rejected .. => "R008"

def help : EvaluationFault → Option String
  | unknownAttribute _ => some "The attribute is not part of the row being evaluated"
  | unknownMacro _ => some "Define the macro or pass a default: macro(name, default)"
  | kindMismatch .. => some "Pass a kind name the value can be converted to"
  | depthExceeded .. => some "Simplify the formula or raise ExecutionOptions::max_depth"
  | nestingTooDeep _ => some "A formula evaluated through eval probably refers to itself"
  | _ => none

end EvaluationFault

mutual

/-- An error as text. -/
def Error.text : Error → String
  | .unreadable e => "Syntax error: " ++ e.text
  | .illTyped e => "Type error: " ++ e.text
  | .failed e => "Evaluation error: " ++ e.text
  termination_by structural e => e

/-- A type error as text, with its advice on a line of its own. -/
def TypeError.text : TypeError → String
  | .mk fault _ span =>
    let diagnosis : Diagnosis := ⟨fault.message, fault.code, span, fault.help⟩
    diagnosis.headline ++ (fault.help.map ("\nhelp: " ++ ·)).getD ""
  termination_by structural e => e

def TypeFault.message : TypeFault → String
  | .operatorMismatch op left right =>
    "Operator '" ++ op.text ++ "' cannot be applied to " ++ left.name ++ " and " ++ right.name
  | .unaryMismatch op operand =>
    "Operator '" ++ op.text ++ "' cannot be applied to " ++ operand.name
  | .argumentMismatch function position expected found =>
    "Argument " ++ Text.decimal (position + 1) ++ " of '" ++ function ++ "' must be " ++
      expected.text ++ ", found " ++ found.name
  | .arityMismatch function expected found =>
    "Function '" ++ function ++ "' takes " ++ expected.text ++ ", found " ++ Text.decimal found
  | .unknownFunction name => "Unknown function '" ++ name ++ "'"
  | .unknownIdentifier name => "Unknown constant or attribute '" ++ name ++ "'"
  | .unknownAttribute name => "Unknown attribute '" ++ name ++ "'"
  | .conditionMismatch found => "Condition must be numeric or BOOLEAN, found " ++ found.name
  | .undetermined function reason =>
    "Cannot determine the result of '" ++ function ++ "': " ++ reason.message
  termination_by structural f => f

def KindFault.message : KindFault → String
  | .kindNotConstant => "the kind argument must be a constant kind name such as REAL"
  | .kindNotText found => "the kind argument must be text, found " ++ found.name
  | .unknownKindName name => "unknown kind name '" ++ name ++ "'"
  | .formulaNotConstant => "without a kind argument the formula must be a constant string"
  | .nestingTooDeep maxNesting =>
    "nested formulas exceed the maximum depth of " ++ Text.decimal maxNesting
  | .invalidFormula formula error =>
    "invalid nested formula '" ++ formula ++ "': " ++ error.text
  | .nameNotConstant =>
    "without a kind argument the attribute name must be a constant string"
  | .unknownAttribute name => "unknown attribute '" ++ name ++ "'"
  | .other text => text
  termination_by structural f => f

/-- An evaluation error as text, with the part of the formula that failed. -/
def EvaluationError.text : EvaluationError → String
  | .mk fault span source =>
    match span, source with
    | some span, some source =>
      let fragment := span.textOf source
      fault.message ++ (if fragment.isEmpty then "" else " in '" ++ fragment ++ "'")
    | _, _ => fault.message
  termination_by structural e => e

def EvaluationFault.message : EvaluationFault → String
  | .unknownAttribute name => "unknown attribute '" ++ name ++ "'"
  | .unknownMacro name => "unknown macro '" ++ name ++ "'"
  | .unknownParameter operator parameter =>
    "unknown parameter '" ++ parameter ++ "' of operator '" ++ operator ++ "'"
  | .kindMismatch expected found =>
    "cannot convert a " ++ found.name ++ " value to " ++ expected.name
  | .depthExceeded depth maxDepth =>
    "Evaluation stack overflow: depth " ++ Text.decimal depth ++ " exceeds maximum of " ++
      Text.decimal maxDepth
  | .nestingTooDeep maxNesting =>
    "nested formulas exceed the maximum depth of " ++ Text.decimal maxNesting
  | .nested formula error => "nested formula '" ++ formula ++ "' failed: " ++ error.text
  | .rejected function cause => function ++ ": " ++ cause.message
  termination_by structural f => f

end

mutual

/-- Whether a formula has no result because the body of a function broke off, in this
formula or in one that it evaluates.  Compiling calls no bodies. -/
def Error.breaksOff : Error → Bool
  | .failed e => e.breaksOff
  | .unreadable _ | .illTyped _ => false
  termination_by structural e => e

def EvaluationError.breaksOff : EvaluationError → Bool
  | .mk fault _ _ => fault.breaksOff
  termination_by structural e => e

def EvaluationFault.breaksOff : EvaluationFault → Bool
  | .nested _ error => error.breaksOff
  | .rejected _ cause => cause.breaksOff
  | _ => false
  termination_by structural f => f

end

namespace TypeError

def fault : TypeError → TypeFault
  | mk fault _ _ => fault

def source : TypeError → String
  | mk _ source _ => source

def span : TypeError → Span
  | mk _ _ span => span

/-- The text at the place of the fault. -/
def fragment (e : TypeError) : String :=
  e.span.textOf e.source

def diagnosis (e : TypeError) : Diagnosis :=
  ⟨e.fault.message, e.fault.code, e.span, e.fault.help⟩

end TypeError

namespace EvaluationError

def fault : EvaluationError → EvaluationFault
  | mk fault _ _ => fault

def span : EvaluationError → Option Span
  | mk _ span _ => span

def source : EvaluationError → Option String
  | mk _ _ source => source

/-- An error at a place whose formula is not known yet. -/
def located (fault : EvaluationFault) (span : Span) : EvaluationError :=
  mk fault (some span) none

/-- Enters the text of the formula unless one is known already. -/
def withSource (source : String) : EvaluationError → EvaluationError
  | mk fault span old => mk fault span (old.or (some source))

/-- Forgets the text of the formula. -/
def withoutSource : EvaluationError → EvaluationError
  | mk fault span _ => mk fault span none

/-- The text at the place of the fault, where both are known. -/
def fragment? (e : EvaluationError) : Option String := do
  pure ((← e.span).textOf (← e.source))

/-- A fault whose place is not known counts as being at the very start. -/
def diagnosis (e : EvaluationError) : Diagnosis :=
  ⟨e.fault.message, e.fault.code, e.span.getD ⟨0, 0⟩, e.fault.help⟩

end EvaluationError

namespace Error

def diagnosis : Error → Diagnosis
  | unreadable e => e.diagnosis
  | illTyped e => e.diagnosis
  | failed e => e.diagnosis

/-- The text of the formula that failed, where it is known. -/
def source? : Error → Option String
  | unreadable e => some e.source
  | illTyped e => some e.source
  | failed e => e.source

end Error

end RowFormula
