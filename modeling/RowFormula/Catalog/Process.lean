/-
# Functions of the process

Random numbers, parameters of operators, and macros by name.
-/

import RowFormula.Function

namespace RowFormula.Catalog

/-- The seed that an argument asks for: none for a missing or infinite number. -/
def seedOf? : List Value → Option Int
  | [] => none
  | v :: _ => if v.toNumber.isFinite then some (Number.toInt64 v.toNumber) else none

/-- Random numbers. -/
def randomNumber : Function where
  name := "rand"
  category := .process
  description := "Random number in [0, 1); a seed makes the sequence reproducible"
  signature := .optionalAfter 0 [.numeric]
  result := .fixed .double
  body := fun call args => do pure (.double (← call.draw (seedOf? args)))

/-- Parameters of operators. -/
def parameter : Function where
  name := "param"
  category := .process
  description := "Value of a parameter of an operator in the running process"
  signature := .all [.single .string, .single .string]
  result := .fixed .string
  body := fun call args =>
    match textAt? args 0, textAt? args 1 with
    | some operator, some parameter =>
      Evaluation.ofOption (.unknownParameter operator parameter)
        ((call.parameter? operator parameter).map Value.ofString)
    | _, _ => pure (.missing .string)

/-- Macros by name. -/
def macroByName : Function where
  name := "macro"
  category := .process
  description := "Value of a macro, or the default when it is not defined"
  signature := .optionalAfter 1 [.single .string, .single .string]
  result := .fixed .string
  body := fun call args =>
    match textAt? args 0 with
    | none => pure (.missing .string)
    | some name =>
      match call.macroText? name with
      | some text => pure (.ofString text)
      | none => if 1 < args.length then call.argument args 1 else throw (.unknownMacro name)

/-- What belongs to the process around the formulas. -/
def process : List Function := [randomNumber, parameter, macroByName]

end RowFormula.Catalog
