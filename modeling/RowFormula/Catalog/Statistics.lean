/-
# Statistical functions

Aggregates over any number of arguments, of which none may be missing, and the
binomial coefficient.
-/

import RowFormula.Function
import RowFormula.Number.Binomial
import RowFormula.Number.Elementary

namespace RowFormula.Catalog

def total (xs : List Float) : Float :=
  Number.foldPresent (· + ·) 0.0 xs

def average (xs : List Float) : Float :=
  total xs / Float.ofNat xs.length

def smallest (xs : List Float) : Float :=
  Number.foldPresent Number.smaller Number.infinity xs

def largest (xs : List Float) : Float :=
  Number.foldPresent Number.larger Number.negInfinity xs

/-- A function of a list of numbers. -/
def aggregate (name description : String) (f : List Float → Float) : Function where
  name := name
  category := .statistical
  description := description
  signature := .many 1 .numeric
  result := .promoted
  body := fun call args => pure (.number call.resultKind (f (args.map Value.toNumber)))

/-- The number of ways to choose some things out of others. -/
def binomial : Function where
  name := "binom"
  category := .statistical
  description := "Binomial coefficient: the number of ways to choose k of n"
  signature := .all [.numeric, .numeric]
  result := .fixed .integer
  body := fun call args => do
    let n := numberAt args 0
    let k := numberAt args 1
    let text := "binom needs whole, non-negative arguments, got " ++ Number.messageText n ++
      " and " ++ Number.messageText k
    pure (.integer (← call.require (.invalidArgument text) (Number.binomial? n k)))

/-- Aggregates and counts. -/
def statistical : List Function :=
  [aggregate "sum" "Sum of the arguments" total,
    aggregate "avg" "Average of the arguments" average,
    aggregate "min" "Smallest argument" smallest,
    aggregate "max" "Largest argument" largest,
    binomial]

end RowFormula.Catalog
