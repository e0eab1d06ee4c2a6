/-
# Engines

An engine owns everything that a formula needs besides the row: functions, constants,
macros, parameters and limits.
-/

import RowFormula.Catalog
import RowFormula.Formula

namespace RowFormula

/-- What formulas need besides the row. -/
structure Engine where
  functions : Registry := Catalog.registry
  constants : Constants := Catalog.constants
  macros : Macros := {}
  parameters : Parameters := {}
  options : Options := {}

namespace Engine

/-- Adds a function, in place of the one that may have its name. -/
def register (engine : Engine) (f : Function) : Engine :=
  { engine with functions := engine.functions.register f }

def defineMacro (engine : Engine) (name text : String) : Engine :=
  { engine with macros := engine.macros.insert name text }

def setParameter (engine : Engine) (operator parameter text : String) : Engine :=
  { engine with parameters := engine.parameters.insert (operator, parameter) text }

/-- The context of a row at some time. -/
def context (engine : Engine) (now : Calendar.Instant) (row : Row) : Context where
  functions := engine.functions
  constants := engine.constants
  row := row
  macros := engine.macros
  process := some engine.parameters
  options := engine.options
  now := now

end Engine

end RowFormula
