/-
# Reading numbers

Number literals and texts are read to the nearest binary64 number.  A text may
carry a sign and may spell an infinity or the missing number; a literal is the
special case of digits, point and exponent.
-/

import RowFormula.Number.Render
import RowFormula.Text.Blank

namespace RowFormula.Number

/-- The number that a run of decimal digits denotes. -/
def digitsValue (cs : List Char) : Nat :=
  cs.foldl (fun n c => 10 * n + (c.toNat - '0'.toNat)) 0

/-- The nearest number to `digits · 10 ^ exponent`.  The cases far outside the
range are decided by the exponent of the first digit alone, so that no huge power
is ever computed. -/
def ofDecimal (d : Decimal) : Float :=
  if d.digits = 0 then 0.0
  else if d.leadingExponent > 310 then infinity
  else if d.leadingExponent < -330 then 0.0
  else if 0 ≤ d.exponent then Float.ofScientific d.digits false d.exponent.toNat
  else Float.ofScientific d.digits true (-d.exponent).toNat

/-- Reads the exponent part, which may be absent. -/
def exponent? : List Char → Option Int
  | [] => some 0
  | c :: rest =>
    if c == 'e' || c == 'E' then
      let (negative, digits) :=
        match rest with
        | '-' :: ds => (true, ds)
        | '+' :: ds => (false, ds)
        | ds => (false, ds)
      if !digits.isEmpty && digits.all Char.isDigit then
        let n : Int := digitsValue digits
        some (if negative then -n else n)
      else none
    else none

/-- Reads digits with an optional point and an optional exponent.  At least one
digit stands before or after the point. -/
def decimal? (cs : List Char) : Option Decimal :=
  let whole := cs.takeWhile Char.isDigit
  let afterWhole := cs.dropWhile Char.isDigit
  let (fraction, rest) :=
    match afterWhole with
    | '.' :: tail => (tail.takeWhile Char.isDigit, tail.dropWhile Char.isDigit)
    | tail => ([], tail)
  if whole.isEmpty && fraction.isEmpty then none
  else
    (exponent? rest).map fun e =>
      ⟨digitsValue (whole ++ fraction), e - fraction.length⟩

/-- Reads a number without a sign. -/
def magnitude? (cs : List Char) : Option Float :=
  match String.ofList (cs.map Char.toLower) with
  | "inf" | "infinity" => some infinity
  | "nan" => some nan
  | _ => (decimal? cs).map ofDecimal

/-- Reads a number that may carry a sign. -/
def read? (text : String) : Option Float :=
  match text.toList with
  | '-' :: cs => (magnitude? cs).map fun x => -x
  | '+' :: cs => magnitude? cs
  | cs => magnitude? cs

/-- Reads a value's text back as a number: blanks around it do not matter, the
infinities may be written as they are shown, and any other text is missing. -/
def ofText (text : String) : Float :=
  match Text.trim text with
  | "∞" | "+∞" => infinity
  | "-∞" => negInfinity
  | trimmed => (read? trimmed).getD nan

end RowFormula.Number
