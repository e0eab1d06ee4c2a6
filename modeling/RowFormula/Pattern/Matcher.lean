/-
# Matching patterns

`Pattern.ends` gives all places at which a match that starts at a place can end, the
preferred ones first.  What follows a pattern depends only on where its match ends,
so of several matches with the same end only the preferred one is kept.
-/

import RowFormula.Pattern.Reader

namespace RowFormula.Pattern

/-- A place in a text, with the groups recorded on the way there. -/
structure Place where
  /-- Number of characters passed. -/
  index : Nat
  /-- The characters passed, the nearest first. -/
  before : List Char
  rest : List Char
  /-- Start and end of recorded groups by number, the latest first. -/
  groups : List (Nat × Nat × Nat)
  deriving DecidableEq, Repr, Inhabited

namespace Place

/-- The start of a text. -/
def start (text : List Char) : Place := ⟨0, [], text, []⟩

/-- The place behind the next character. -/
def next? (p : Place) : Option Place :=
  match p.rest with
  | [] => none
  | c :: cs => some { p with index := p.index + 1, before := c :: p.before, rest := cs }

/-- Records a group that started at `first` and ends here. -/
def record (p : Place) (number first : Nat) : Place :=
  { p with groups := (number, first, p.index) :: p.groups.filter fun g => g.1 ≠ number }

/-- Whether the character in front belongs to a word. -/
def wordBefore (ascii : Bool) (p : Place) : Bool :=
  p.before.head?.any (isWord ascii)
where
  /-- Whether a character belongs to a word, of ASCII characters only if so asked. -/
  isWord (ascii : Bool) (c : Char) : Bool :=
    if ascii then c.isAlphanum || c == '_' else Text.isWordChar c

/-- Whether the character behind belongs to a word. -/
def wordAfter (ascii : Bool) (p : Place) : Bool :=
  p.rest.head?.any (wordBefore.isWord ascii)

end Place

namespace Assertion

/-- Whether a condition holds at a place. -/
def holds (a : Assertion) (p : Place) : Bool :=
  let before := p.before.head?
  let after := p.rest.head?
  match a with
  | textStart => before.isNone
  | textEnd => after.isNone
  | lineStart => before.isNone || before == some '\n'
  | lineEnd => after.isNone || after == some '\n'
  | anyLineStart =>
    before.isNone || before == some '\n' || (before == some '\r' && after != some '\n')
  | anyLineEnd =>
    after.isNone || after == some '\r' || (after == some '\n' && before != some '\r')
  | wordBoundary ascii => p.wordBefore ascii != p.wordAfter ascii
  | noWordBoundary ascii => p.wordBefore ascii == p.wordAfter ascii
  | wordStart ascii => !p.wordBefore ascii && p.wordAfter ascii
  | wordEnd ascii => p.wordBefore ascii && !p.wordAfter ascii
  | wordStartHalf ascii => !p.wordBefore ascii
  | wordEndHalf ascii => !p.wordAfter ascii

end Assertion

/-- Keeps the first of several places with the same index. -/
def distinct (places : List Place) : List Place :=
  places.foldr (fun p rest => p :: rest.filter fun q => q.index ≠ p.index) []

/-- Takes a step from each of some places in turn. -/
def afterEach (step : Place → List Place) (places : List Place) : List Place :=
  distinct (places.flatMap step)

/-- Repeats a step a number of times. -/
def times (step : Place → List Place) : (count : Nat) → List Place → List Place
  | 0, places => places
  | count + 1, places => times step count (afterEach step places)

/-- The places after one or more steps, and the indices from which steps were taken.
From an index in `seen` no step is taken again: it would only repeat what was found
already.  Every other step moves on, so the length of the text bounds `fuel`. -/
def loopFrom (step : Place → List Place) (greedy : Bool) :
    (fuel : Nat) → (seen : List Nat) → Place → List Place × List Nat
  | 0, seen, _ => ([], seen)
  | fuel + 1, seen, p =>
    if seen.contains p.index then ([], seen)
    else
      (step p).foldl (fun (found, seen) q =>
        let (more, seen) := loopFrom step greedy fuel seen q
        (found ++ (if greedy then more ++ [q] else q :: more), seen))
        ([], p.index :: seen)

/-- The places after one or more steps. -/
def loop (step : Place → List Place) (greedy : Bool) (p : Place) : List Place :=
  distinct (loopFrom step greedy (p.rest.length + 2) [] p).1

/-- Prefers going on to staying if `greedy` holds. -/
def orStay (greedy : Bool) (p : Place) (further : List Place) : List Place :=
  distinct (if greedy then further ++ [p] else p :: further)

/-- The places after at most `count` steps. -/
def upTo (step : Place → List Place) (greedy : Bool) : (count : Nat) → Place → List Place
  | 0, p => [p]
  | count + 1, p => orStay greedy p (afterEach (upTo step greedy count) (step p))

end RowFormula.Pattern

namespace RowFormula.Pattern

/-- The ends of all matches from a place, the preferred ones first. -/
def ends : Pattern → Place → List Place
  | empty, p => [p]
  | oneOf set, p =>
    match p.rest with
    | [] => []
    | c :: _ => if set.contains c then p.next?.toList else []
  | assertion a, p => if a.holds p then [p] else []
  | seq a b, p => afterEach (ends b) (ends a p)
  | either a b, p => distinct (ends a p ++ ends b p)
  | capture number a, p => (ends a p).map fun q => q.record number p.index
  | repeated a least (some most) greedy, p =>
    afterEach (upTo (ends a) greedy (most - least)) (times (ends a) least [p])
  | repeated a 0 none greedy, p => orStay greedy p (loop (ends a) greedy p)
  | repeated a (least + 1) none greedy, p =>
    afterEach (loop (ends a) greedy) (times (ends a) least [p])

/-- A match: where it starts, and where it ends. -/
structure Match where
  start : Nat
  stop : Place
  deriving DecidableEq, Repr

/-- The preferred match that starts at a place. -/
def matchAt? (pattern : Pattern) (p : Place) : Option Match :=
  (pattern.ends p).head?.map fun stop => ⟨p.index, stop⟩

/-- The first match that starts at a place or behind it, within so many steps. -/
def searchFrom? (pattern : Pattern) : (steps : Nat) → Place → Option Match
  | 0, p => matchAt? pattern p
  | steps + 1, p =>
    match matchAt? pattern p with
    | some m => some m
    | none => p.next?.bind (searchFrom? pattern steps)

/-- The first match that starts at a place or behind it. -/
def search? (pattern : Pattern) (p : Place) : Option Match :=
  searchFrom? pattern p.rest.length p

/-- Whether the pattern matches somewhere in a text. -/
def matchesIn (pattern : Pattern) (text : String) : Bool :=
  (search? pattern (Place.start text.toList)).isSome

end RowFormula.Pattern
