/-
# Numbers as text

Four writings of numbers, which differ in where positional notation ends and in
how they mark whole numbers and positive exponents.  Each is one
`DecimalStyle`; `DecimalStyle.write` is the only printer.  `fixedText` writes a
fixed count of places instead of the shortest digits.
-/

import RowFormula.Number.Shortest
import RowFormula.Text.Phrase

namespace RowFormula.Number

/-- The decisions of a writing of numbers. -/
structure DecimalStyle where
  /-- Which exponents of the first digit are written positionally. -/
  positional : Int → Bool
  /-- Whether a whole number in positional notation ends in `.0`. -/
  marksWhole : Bool
  /-- Whether an exponent that is not negative carries a plus sign. -/
  plusExponent : Bool
  /-- Whether zero keeps its sign. -/
  signsZero : Bool

namespace DecimalStyle

/-- Values as formulas show them: positional from `1e-4` up to below `1e15`, with
no mark on whole numbers and no sign on zero. -/
def minimal : DecimalStyle where
  positional e := -4 ≤ e && e < 15
  marksWhole := false
  plusExponent := false
  signsZero := false

/-- Numbers inside messages: never an exponent. -/
def plain : DecimalStyle where
  positional _ := true
  marksWhole := false
  plusExponent := false
  signsZero := true

/-- Numbers inside a printed tree: positional from `1e-4` up to below `1e16`, and
always recognisable as a fraction or an exponent. -/
def tree : DecimalStyle where
  positional e := -4 ≤ e && e < 16
  marksWhole := true
  plusExponent := false
  signsZero := true

/-- Numbers inside a JSON text: positional from `1e-5` up to below `1e16`. -/
def json : DecimalStyle where
  positional e := -5 ≤ e && e < 16
  marksWhole := true
  plusExponent := true
  signsZero := true

/-- Digits with the point after the digit whose exponent is zero. -/
def positionalText (marksWhole : Bool) (d : Decimal) : String :=
  let digits := Nat.toDigits 10 d.digits
  if 0 ≤ d.exponent then
    String.ofList (digits ++ List.replicate d.exponent.toNat '0') ++
      (if marksWhole then ".0" else "")
  else
    let places := (-d.exponent).toNat
    let padded := List.replicate (places + 1 - digits.length) '0' ++ digits
    let whole := padded.length - places
    String.ofList (padded.take whole) ++ "." ++ String.ofList (padded.drop whole)

/-- One digit, the point, the other digits, and the exponent. -/
def exponentText (plusExponent : Bool) (d : Decimal) : String :=
  let e := d.leadingExponent
  let sign := if plusExponent && 0 ≤ e then "+" else ""
  let mantissa :=
    match Nat.toDigits 10 d.digits with
    | [] => ""
    | [c] => String.singleton c
    | c :: rest => String.singleton c ++ "." ++ String.ofList rest
  mantissa ++ "e" ++ sign ++ Text.signedDecimal e

/-- Writes a finite number. -/
def write (style : DecimalStyle) (x : Float) : String :=
  let dyadic := Dyadic.ofFloat x
  let d := dyadic.shortest
  let magnitude :=
    if d.digits = 0 || style.positional d.leadingExponent then
      positionalText style.marksWhole d
    else exponentText style.plusExponent d
  if dyadic.negative && (style.signsZero || d.digits != 0) then "-" ++ magnitude
  else magnitude

end DecimalStyle

/-- The text of an infinity in values. -/
def infinityText (x : Float) : String :=
  if signBit x then "-∞" else "∞"

/-- The text of a number wherever it is turned into text implicitly.  The missing
number has none. -/
def minimalText? (x : Float) : Option String :=
  if x.isNaN then none
  else if x.isFinite then some (DecimalStyle.minimal.write x)
  else some (infinityText x)

/-- A natural number of thousandths, with its three places. -/
def thousandthsText (n : Nat) : String :=
  Text.decimal (n / 1000) ++ "." ++ Text.padLeft 3 '0' (Text.decimal (n % 1000))

/-- The text of a number with three places.  The exact value is rounded, a half
to the even neighbour, and the sign stays even when all digits are zero. -/
def fixedText? (x : Float) : Option String :=
  if x.isNaN then none
  else if x.isFinite then
    let d := Dyadic.ofFloat x
    let (whole, rest, denominator) := { d with mantissa := d.mantissa * 1000 : Dyadic }.split
    let up := denominator < 2 * rest || (denominator == 2 * rest && whole % 2 == 1)
    let text := thousandthsText (if up then whole + 1 else whole)
    some (if d.negative then "-" ++ text else text)
  else some (infinityText x)

/-- The text of a number inside a message, where no number is missing. -/
def messageText (x : Float) : String :=
  if x.isNaN then "NaN"
  else if x.isFinite then DecimalStyle.plain.write x
  else if signBit x then "-inf" else "inf"

/-- The text of a number inside a printed tree. -/
def treeText (x : Float) : String :=
  if x.isNaN then "NaN"
  else if x.isFinite then DecimalStyle.tree.write x
  else if signBit x then "-inf" else "inf"

/-- The text of a number in JSON, which has none for infinities and for the
missing number. -/
def jsonText? (x : Float) : Option String :=
  if x.isFinite then some (DecimalStyle.json.write x) else none

end RowFormula.Number
