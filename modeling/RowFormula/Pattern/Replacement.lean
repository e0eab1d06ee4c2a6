/-
# Replacing matches

In a replacement `$` refers to groups of the match, by number or by name, with or
without braces.  `$$` stands for a dollar sign, and so does a `$` without a group.
-/

import RowFormula.Pattern.Matcher

namespace RowFormula.Pattern

/-- A part of a replacement. -/
inductive ReplacementPart where
  | char (c : Char)
  | group (name : List Char)
  deriving DecidableEq, Repr

/-- Characters of a reference without braces. -/
def isReferenceChar (c : Char) : Bool :=
  c.isAlphanum || c == '_'

/-- Reads a replacement.  Every step takes at least one character. -/
def readReplacement : (steps : Nat) → List Char → List ReplacementPart
  | _, [] => []
  | 0, _ :: _ => []
  | steps + 1, '$' :: '$' :: rest => .char '$' :: readReplacement steps rest
  | steps + 1, '$' :: '\x7b' :: rest =>
    let name := rest.takeWhile (· != '\x7d')
    match rest.drop name.length with
    | _ :: rest => .group name :: readReplacement steps rest
    | [] => .char '$' :: readReplacement steps ('\x7b' :: rest)
  | steps + 1, '$' :: rest =>
    let name := rest.takeWhile isReferenceChar
    if name.isEmpty then .char '$' :: readReplacement steps rest
    else .group name :: readReplacement steps (rest.drop name.length)
  | steps + 1, c :: rest => .char c :: readReplacement steps rest

/-- The number that digits denote, which a plus sign may precede. -/
def groupNumber? (name : List Char) : Option Nat :=
  let digits :=
    match name with
    | '+' :: ds => ds
    | ds => ds
  if !digits.isEmpty && digits.all Char.isDigit then
    some (digits.foldl (fun n c => 10 * n + (c.toNat - '0'.toNat)) 0)
  else none

/-- Start and end of a group of a match, group zero being the whole match. -/
def Match.group? (m : Match) (number : Nat) : Option (Nat × Nat) :=
  if number = 0 then some (m.start, m.stop.index) else m.stop.groups.lookup number

/-- The text that a part of a replacement stands for.  Groups that do not exist or
took no part in the match stand for nothing. -/
def partText (pattern : Named) (text : List Char) (m : Match) : ReplacementPart → List Char
  | .char c => [c]
  | .group name =>
    let number := (groupNumber? name).or (pattern.names.lookup (String.ofList name))
    match number.bind m.group? with
    | some (first, last) => (text.drop first).take (last - first)
    | none => []

/-- The next match behind `p`.  An empty match that touches the one before it is
passed over. -/
def nextMatch? (pattern : Pattern) (p : Place) (lastEnd : Option Nat) : Option Match :=
  match pattern.search? p with
  | none => none
  | some m =>
    if m.start = m.stop.index && lastEnd == some m.start then
      p.next?.bind pattern.search?
    else some m

/-- All matches from left to right without overlap.  Each one ends behind the one
before it, so there is at most one more match than there are characters. -/
def matchesFrom (pattern : Pattern) :
    (steps : Nat) → Place → (lastEnd : Option Nat) → List Match
  | 0, _, _ => []
  | steps + 1, p, lastEnd =>
    match nextMatch? pattern p lastEnd with
    | none => []
    | some m =>
      m :: matchesFrom pattern steps { m.stop with groups := [] } (some m.stop.index)

/-- All matches in a text. -/
def allMatches (pattern : Pattern) (text : List Char) : List Match :=
  matchesFrom pattern (text.length + 2) (Place.start text) none

/-- Puts a text together from the parts between matches and what replaces them. -/
def assemble (text : List Char) (replace : Match → List Char) :
    (position : Nat) → List Match → List Char
  | position, [] => text.drop position
  | position, m :: ms =>
    (text.drop position).take (m.start - position) ++ replace m ++
      assemble text replace m.stop.index ms

/-- Replaces every match in a text. -/
def replaceAll (pattern : Named) (text replacement : String) : String :=
  let cs := text.toList
  let parts := readReplacement replacement.length replacement.toList
  let replace := fun m => parts.flatMap (partText pattern cs m)
  String.ofList (assemble cs replace 0 (allMatches pattern.pattern cs))

end RowFormula.Pattern
