/-
# Phrases and columns

Small pieces of prose layout: lists of alternatives as messages phrase them,
columns padded with blanks, and hexadecimal numerals.
-/

namespace RowFormula.Text

/-- Phrases alternatives as `a, b or c`.  There is no phrase for none. -/
def alternatives? : List String → Option String
  | [] => none
  | [x] => some x
  | x :: y :: rest =>
    let names := x :: y :: rest
    some (", ".intercalate names.dropLast ++ " or " ++ names.getLast (by simp [names]))

/-- Fills up with blanks on the right to at least `width` characters. -/
def padRight (width : Nat) (s : String) : String :=
  s ++ String.ofList (List.replicate (width - s.length) ' ')

/-- Fills up with `fill` on the left to at least `width` characters. -/
def padLeft (width : Nat) (fill : Char) (s : String) : String :=
  String.ofList (List.replicate (width - s.length) fill) ++ s

/-- The decimal digits of a natural number. -/
def decimal (n : Nat) : String :=
  String.ofList (Nat.toDigits 10 n)

/-- The decimal digits of an integer, with a minus sign in front of a negative
one. -/
def signedDecimal (n : Int) : String :=
  match n with
  | .ofNat m => decimal m
  | .negSucc m => "-" ++ decimal (m + 1)

/-- Decimal digits with a sign in front of every number, also a positive one. -/
def alwaysSignedDecimal (n : Int) : String :=
  if n < 0 then signedDecimal n else "+" ++ signedDecimal n

/-- A natural number in small hexadecimal digits. -/
def hexadecimal (n : Nat) : String :=
  String.ofList (Nat.toDigits 16 n)

/-- A natural number in capital hexadecimal digits. -/
def hexadecimalCapital (n : Nat) : String :=
  String.ofList ((Nat.toDigits 16 n).map Char.toUpper)

end RowFormula.Text
