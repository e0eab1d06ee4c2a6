/-
# Spans

A span is a range of byte positions in the UTF-8 form of a text.  The text under a
span is empty whenever the span does not fit: when it is reversed, reaches beyond
the end, or cuts a character in two.
-/

namespace RowFormula

/-- A range of byte positions, from `start` up to below `stop`. -/
structure Span where
  start : Nat
  stop : Nat
  deriving DecidableEq, Repr, Inhabited

namespace Span

/-- From the start of one span to the end of another. -/
def combine (a b : Span) : Span := ⟨a.start, b.stop⟩

/-- The bytes that characters take. -/
def bytesOf : List Char → Nat
  | [] => 0
  | c :: cs => c.utf8Size + bytesOf cs

@[simp]
theorem bytesOf_append (cs ds : List Char) :
    bytesOf (cs ++ ds) = bytesOf cs + bytesOf ds := by
  induction cs with
  | nil => exact (Nat.zero_add _).symm
  | cons c cs ih => rw [List.cons_append, bytesOf, bytesOf, ih, Nat.add_assoc]

/-- Drops characters that take so many bytes altogether, if their number comes out
even. -/
def dropBytes? : (bytes : Nat) → List Char → Option (List Char)
  | 0, cs => some cs
  | _ + 1, [] => none
  | bytes, c :: cs =>
    if c.utf8Size ≤ bytes then dropBytes? (bytes - c.utf8Size) cs else none

/-- Takes characters that take so many bytes altogether, if their number comes out
even. -/
def takeBytes? : (bytes : Nat) → List Char → Option (List Char)
  | 0, _ => some []
  | _ + 1, [] => none
  | bytes, c :: cs =>
    if c.utf8Size ≤ bytes then (takeBytes? (bytes - c.utf8Size) cs).map (c :: ·) else none

/-- The characters under a span, if it fits the text. -/
def chars? (span : Span) (source : List Char) : Option (List Char) :=
  if span.start ≤ span.stop then
    (dropBytes? span.start source).bind (takeBytes? (span.stop - span.start))
  else none

/-- The text under a span; nothing if the span does not fit. -/
def textOf (span : Span) (source : String) : String :=
  String.ofList ((span.chars? source.toList).getD [])

end Span

end RowFormula
