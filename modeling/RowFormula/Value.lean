/-
# Values

A value carries its kind, and every kind has exactly one missing value: the
missing number for the numeric kinds, and the absence of a payload for the
others.  Missing is a value, never an error.

Equality of values here is identity: the missing number equals itself, and the two
zeros differ.  Equality as formulas write it stands in `RowFormula.Value.Compare`.
-/

import RowFormula.Calendar.Instant
import RowFormula.Kind
import RowFormula.Number.Render

namespace RowFormula

open Calendar (Instant)

/-- The value of a formula or an attribute. -/
inductive Value where
  | integer (x : Float)
  | double (x : Float)
  | boolean (b : Option Bool)
  | string (s : Option String)
  | date (d : Option Instant)
  deriving DecidableEq, Repr, Inhabited

namespace Value

def kind : Value → Kind
  | integer _ => .integer
  | double _ => .double
  | boolean _ => .boolean
  | string _ => .string
  | date _ => .date

/-- A number of a numeric kind; any kind other than the whole numbers gives a
`double`. -/
def number (k : Kind) (x : Float) : Value :=
  if k = .integer then integer x else double x

/-- A truth value that is there. -/
def ofBool (b : Bool) : Value := boolean (some b)

/-- A text that is there. -/
def ofString (s : String) : Value := string (some s)

/-- A date that is there. -/
def ofInstant (i : Instant) : Value := date (some i)

/-- The missing value of a kind. -/
def missing : Kind → Value
  | .integer => integer Number.nan
  | .double => double Number.nan
  | .boolean => boolean none
  | .string => string none
  | .date => date none

def isMissing : Value → Bool
  | integer x => x.isNaN
  | double x => x.isNaN
  | boolean b => b.isNone
  | string s => s.isNone
  | date d => d.isNone

/-- The number of a numeric value, which may be the missing one. -/
def number? : Value → Option Float
  | integer x => some x
  | double x => some x
  | _ => none

/-- The number of a value; the missing one for every value that has none. -/
def toNumber (v : Value) : Float :=
  v.number?.getD Number.nan

def bool? : Value → Option Bool
  | boolean b => b
  | _ => none

def string? : Value → Option String
  | string s => s
  | _ => none

def instant? : Value → Option Instant
  | date d => d
  | _ => none

/-- The text of a truth value. -/
def boolText (b : Bool) : String := if b then "true" else "false"

/-- The text of a value wherever it is turned into text implicitly.  A missing value
has none. -/
def text? : Value → Option String
  | integer x => Number.minimalText? x
  | double x => Number.minimalText? x
  | boolean b => b.map boolText
  | string s => s
  | date d => d.map Instant.text

/-- How a value is shown: its text, or a question mark. -/
def shown (v : Value) : String :=
  v.text?.getD "?"

/-- Converts to another kind where that loses nothing or is a matter of writing:
numbers become numbers of the other numeric kind, everything becomes text, and
what is missing stays missing. -/
def coerce? (v : Value) (k : Kind) : Option Value :=
  if v.kind = k then some v
  else if v.isMissing then some (missing k)
  else if k = .string then some (string v.text?)
  else if k.isNumeric then v.number?.map (number k)
  else none

@[simp]
theorem kind_missing (k : Kind) : (missing k).kind = k := by
  cases k <;> rfl

theorem kind_number {k : Kind} (h : k.isNumeric = true) (x : Float) : (number k x).kind = k := by
  cases k <;> simp_all [number, kind, Kind.isNumeric]

theorem coerce?_self (v : Value) : v.coerce? v.kind = some v := by
  simp [coerce?]

theorem kind_of_coerce? {v w : Value} {k : Kind} (h : v.coerce? k = some w) : w.kind = k := by
  unfold coerce? at h
  split at h
  · simp_all
  · split at h
    · simp_all [← Option.some.inj h]
    · split at h
      · simp_all [← Option.some.inj h, kind]
      · split at h
        · obtain ⟨x, -, rfl⟩ := Option.map_eq_some_iff.1 h
          exact kind_number (by assumption) x
        · simp at h

end Value

end RowFormula
