/-
# Text in literals and brackets

Between quotes a backslash introduces an escape; between brackets it merely takes
away the meaning of the next character.  Faults are located by byte positions in
the text between the quotes.
-/

import RowFormula.Text.Phrase

namespace RowFormula.Grammar

/-- Why the text of a literal cannot be read. -/
inductive EscapeFault where
  /-- No such escape; `shown` is the backslash with the character after it. -/
  | unknown (position : Nat) (shown : String)
  /-- Fewer than four hexadecimal digits. -/
  | incomplete (position : Nat) (digits : Nat)
  /-- The number of a surrogate, which is no character. -/
  | notScalar (position : Nat) (value : Nat)
  deriving DecidableEq, Repr

namespace EscapeFault

def message : EscapeFault → String
  | unknown position shown =>
    "invalid escape sequence '" ++ shown ++ "' at position " ++ Text.decimal position
  | incomplete position digits =>
    "incomplete Unicode escape at position " ++ Text.decimal position ++
      ": expected 4 digits, got " ++ Text.decimal digits
  | notScalar position value =>
    "invalid Unicode scalar value U+" ++ Text.hexadecimalCapital value ++ " at position " ++
      Text.decimal position

end EscapeFault

/-- The value of a hexadecimal digit. -/
def hexValue? (c : Char) : Option Nat :=
  if c.isDigit then some (c.toNat - '0'.toNat)
  else if 'a' ≤ c && c ≤ 'f' then some (c.toNat - 'a'.toNat + 10)
  else if 'A' ≤ c && c ≤ 'F' then some (c.toNat - 'A'.toNat + 10)
  else none

/-- The number of hexadecimal digits at the front, of which four are of interest. -/
def hexRun (cs : List Char) : Nat :=
  ((cs.take 4).takeWhile fun c => (hexValue? c).isSome).length

/-- The character with a number, unless the number is that of a surrogate. -/
def scalar? (n : Nat) : Option Char :=
  if h : n.isValidChar then some (Char.ofNatAux n h) else none

/-- Reads the text between quotes, which starts at a byte position. -/
def unescapeFrom : (position : Nat) → List Char → Except EscapeFault (List Char)
  | _, [] => pure []
  | p, '\\' :: '"' :: rest => do pure ('"' :: (← unescapeFrom (p + 2) rest))
  | p, '\\' :: '\\' :: rest => do pure ('\\' :: (← unescapeFrom (p + 2) rest))
  | p, '\\' :: 'n' :: rest => do pure ('\n' :: (← unescapeFrom (p + 2) rest))
  | p, '\\' :: 'r' :: rest => do pure ('\r' :: (← unescapeFrom (p + 2) rest))
  | p, '\\' :: 't' :: rest => do pure ('\t' :: (← unescapeFrom (p + 2) rest))
  | p, '\\' :: 'u' :: a :: b :: c :: d :: rest =>
    match hexValue? a, hexValue? b, hexValue? c, hexValue? d with
    | some a, some b, some c, some d =>
      let n := 4096 * a + 256 * b + 16 * c + d
      match scalar? n with
      | some c => do pure (c :: (← unescapeFrom (p + 6) rest))
      | none => throw (.notScalar p n)
    | _, _, _, _ => throw (.incomplete p (hexRun [a, b, c, d]))
  | p, '\\' :: 'u' :: rest => throw (.incomplete p (hexRun rest))
  | p, '\\' :: c :: _ => throw (.unknown p (String.ofList ['\\', c]))
  | p, ['\\'] => throw (.unknown p "\\")
  | p, c :: rest => do pure (c :: (← unescapeFrom (p + c.utf8Size) rest))

theorem unescapeFrom_plain {position : Nat} {c : Char} {cs ds : List Char} (hc : c ≠ '\\')
    (h : unescapeFrom (position + c.utf8Size) cs = .ok ds) :
    unescapeFrom position (c :: cs) = .ok (c :: ds) := by
  rw [unescapeFrom]
  · rw [h]
    rfl
  all_goals
    intros
    simp_all

/-- Without a backslash every character stands for itself. -/
theorem unescapeFrom_of_not_mem {cs : List Char} (h : '\\' ∉ cs) (position : Nat) :
    unescapeFrom position cs = .ok cs := by
  induction cs generalizing position with
  | nil => rfl
  | cons c cs ih =>
      rw [List.mem_cons, not_or] at h
      exact unescapeFrom_plain (Ne.symm h.1) (ih h.2 _)

/-- Reads the text between quotes, which is kept as it is if no backslash stands in it. -/
def unescape (content : String) : Except EscapeFault String :=
  if '\\' ∈ content.toList then (unescapeFrom 0 content.toList).map String.ofList
  else pure content

theorem unescape_eq (content : String) :
    unescape content = (unescapeFrom 0 content.toList).map String.ofList := by
  rw [unescape]
  split
  · rfl
  · rename_i h
    rw [unescapeFrom_of_not_mem h, Except.map, String.ofList_toList]
    rfl

/-- Drops each backslash that takes away the meaning of another character. -/
def unbracketChars : List Char → List Char
  | '\\' :: c :: rest => c :: unbracketChars rest
  | ['\\'] => []
  | c :: rest => c :: unbracketChars rest
  | [] => []

/-- Reads the name between brackets. -/
def unbracket (content : String) : String :=
  String.ofList (unbracketChars content.toList)

end RowFormula.Grammar
