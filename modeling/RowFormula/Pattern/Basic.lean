/-
# Patterns

A pattern describes texts by sequences, alternatives and repetitions of single
characters.  Flags and escapes are resolved when a pattern is read, so that a
`Pattern` means the same wherever it stands.
-/

import RowFormula.Pattern.CharSet

namespace RowFormula

namespace Pattern

/-- Conditions on a place in a text. -/
inductive Assertion where
  | textStart
  | textEnd
  /-- The start of a line; lines end with a line feed. -/
  | lineStart
  | lineEnd
  /-- The start of a line; lines end with a carriage return, a line feed, or both. -/
  | anyLineStart
  | anyLineEnd
  | wordBoundary (ascii : Bool)
  | noWordBoundary (ascii : Bool)
  | wordStart (ascii : Bool)
  | wordEnd (ascii : Bool)
  /-- No word character in front. -/
  | wordStartHalf (ascii : Bool)
  /-- No word character behind. -/
  | wordEndHalf (ascii : Bool)
  deriving DecidableEq, Repr

end Pattern

/-- A pattern. -/
inductive Pattern where
  /-- Matches without taking anything. -/
  | empty
  /-- Takes one character of a set. -/
  | oneOf (set : Pattern.CharSet)
  | assertion (a : Pattern.Assertion)
  | seq (p q : Pattern)
  /-- Prefers the first. -/
  | either (p q : Pattern)
  /-- A group whose match is recorded under a number. -/
  | capture (number : Nat) (p : Pattern)
  /-- At least `least` times, and at most `most` times if there is a limit.  Greedy
  repetition prefers more. -/
  | repeated (p : Pattern) (least : Nat) (most : Option Nat) (greedy : Bool)
  deriving DecidableEq, Repr, Inhabited

end RowFormula
