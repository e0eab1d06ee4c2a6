/-
# Indirection

Formulas and names of attributes that are computed.  Their kind is either given, as the
name of a kind, or found by looking at the formula or attribute itself, which must then
be constant.
-/

import RowFormula.Function

namespace RowFormula.Catalog

/-- The kind that the constant argument at a position names. -/
def kindArgument (request : KindRequest) (position : Nat) : Except KindFault Kind := do
  let arg ← request.argument position
  match arg.constant with
  | none => .error .kindNotConstant
  | some value =>
    match value.string? with
    | none => .error (.kindNotText value.kind)
    | some name =>
      match Kind.ofName? name with
      | none => .error (.unknownKindName name)
      | some k => .ok k

/-- The kind of a nested formula. -/
def formulaResult (request : KindRequest) : Except KindFault Kind :=
  if 1 < request.args.length then kindArgument request 1
  else
    match request.constantText? 0 with
    | none => .error .formulaNotConstant
    | some formula => request.formulaKind formula

/-- The kind of an attribute that is named by a text. -/
def attributeResult (request : KindRequest) : Except KindFault Kind :=
  if 1 < request.args.length then kindArgument request 1
  else
    match request.constantText? 0 with
    | none => .error .nameNotConstant
    | some name =>
      match request.attributeKind? name with
      | none => .error (.unknownAttribute name)
      | some k => .ok k

/-- Formulas as texts. -/
def nestedFormula : Function where
  name := "eval"
  category := .indirection
  description := "Evaluates formula text, optionally converting the result to a kind"
  signature := .optionalAfter 1 [.single .string, .single .string]
  result := .custom formulaResult
  body := fun call args =>
    match textAt? args 0 with
    | some formula => do call.coerce (← call.evaluateFormula formula)
    | none => pure (.missing call.resultKind)

/-- Attributes by name. -/
def attributeByName : Function where
  name := "attribute"
  category := .indirection
  description := "Value of the attribute with the given name, optionally converted"
  signature := .optionalAfter 1 [.single .string, .single .string]
  result := .custom attributeResult
  body := fun call args =>
    match textAt? args 0 with
    | some name => do
      let v ← Evaluation.ofOption (.unknownAttribute name) (call.attribute? name)
      call.coerce v
    | none => pure (.missing call.resultKind)

/-- What is found by its text or name. -/
def indirection : List Function := [nestedFormula, attributeByName]

end RowFormula.Catalog
