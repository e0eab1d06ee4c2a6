/-
# Recognising steps

A step of recognition either consumes a part of the text or fails and leaves the
text as it is.  In both cases it may note attempts: the constructs that were tried
at the furthest place reached so far.  When the whole text turns out not to be a
formula, the attempts say where the fault is and what was expected there.
-/

import RowFormula.Grammar.Chain
import RowFormula.Span

namespace RowFormula.Grammar

/-- What is left of the text, and the byte position where it starts. -/
structure Cursor where
  rest : List Char
  position : Nat
  deriving DecidableEq, Repr

/-- The constructs tried at the furthest place. -/
structure Attempts where
  position : Nat := 0
  tried : List Construct := []
  deriving DecidableEq, Repr, Inhabited

namespace Attempts

/-- Number of attempts at a place. -/
def countAt (a : Attempts) (position : Nat) : Nat :=
  if a.position = position then a.tried.length else 0

/-- Notes that a construct was tried at `start` and failed.  `before` is the state
of the notes when the construct was entered.

If the parts of the construct noted exactly one attempt at the same place, that
note is precise enough and stays alone.  Otherwise the construct stands for all its
parts tried at that place.  A failure behind the furthest place is not noted. -/
def note (a before : Attempts) (c : Construct) (start : Nat) : Attempts :=
  if a.countAt start = before.countAt start + 1 then a
  else
    if a.position = start then
      { a with tried := a.tried.take (before.countAt start) ++ [c] }
    else if a.position < start then ⟨start, [c]⟩
    else a

end Attempts

/-- A step of recognition. -/
abbrev Recognize (α : Type) : Type := StateT Cursor (OptionT (StateM Attempts)) α

namespace Recognize

variable {α : Type}

/-- The step that fails. -/
def fail : Recognize α := fun _ => OptionT.fail

/-- Takes one character. -/
def satisfy (p : Char → Bool) : Recognize Char := do
  match (← get).rest with
  | c :: cs =>
    if p c then
      modify fun s => ⟨cs, s.position + c.utf8Size⟩
      pure c
    else fail
  | [] => fail

/-- Takes exactly one character. -/
def char (c : Char) : Recognize Unit := do
  let _ ← satisfy (· == c)

/-- Takes a text. -/
def text : List Char → Recognize Unit
  | [] => pure ()
  | c :: cs => do
    char c
    text cs

/-- Demands that the next character, if any, is not `c`, and takes nothing. -/
def isNotNext (c : Char) : Recognize Unit := do
  match (← get).rest with
  | d :: _ => if d == c then fail else pure ()
  | [] => pure ()

/-- Takes the longest run of characters. -/
def run (p : Char → Bool) : Recognize (List Char) := do
  let s ← get
  let taken := s.rest.takeWhile p
  set (Cursor.mk (s.rest.dropWhile p) (s.position + Span.bytesOf taken))
  pure taken

/-- Takes the longest run of characters, which must not be empty. -/
def run1 (p : Char → Bool) : Recognize (List Char) := do
  let taken ← run p
  if taken.isEmpty then fail else pure taken

/-- Blanks, which may stand between the parts of a formula. -/
def isBlank (c : Char) : Bool :=
  c == ' ' || c == '\t' || c == '\r' || c == '\n'

/-- Takes any blanks. -/
def blanks : Recognize Unit := do
  let _ ← run isBlank

/-- The first of several steps that succeeds. -/
def first : List (Recognize α) → Recognize α
  | [] => fail
  | p :: ps => p <|> first ps

/-- Repeats a step until it fails, at most `times` times. -/
def repeatUpTo (p : Recognize α) : (times : Nat) → Recognize (List α)
  | 0 => pure []
  | times + 1 =>
    (do
      let x ← p
      let xs ← repeatUpTo p times
      pure (x :: xs)) <|> pure []

/-- Repeats a step that takes at least one character until it fails.  The step is
also tried at the end of the text, where its failure is of interest. -/
def many (p : Recognize α) : Recognize (List α) := do
  repeatUpTo p ((← get).rest.length + 1)

/-- Runs a step as a construct of the grammar, whose failure is noted. -/
def construct (c : Construct) (p : Recognize α) : Recognize α := fun s =>
  OptionT.mk fun before =>
    match (p s).run before with
    | (some x, a) => (some x, a)
    | (none, a) => (none, a.note before c s.position)

/-- Runs a step and tells which part of the text it took. -/
def spanned (p : Recognize α) : Recognize (α × Span) := do
  let start := (← get).position
  let x ← p
  pure (x, ⟨start, (← get).position⟩)

end Recognize

end RowFormula.Grammar
