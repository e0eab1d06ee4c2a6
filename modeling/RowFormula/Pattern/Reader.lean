/-
# Reading patterns

The notation of patterns: `.`, `[...]`, `*`, `+`, `?`, `{n,m}`, `|`, groups, anchors,
escapes, and flags in `(?...)`.  There is no looking around and no reference back to
a group; a text that asks for them is refused.

Flags hold to the end of the group in which they are set.  Blanks and comments are
skipped where the flag `x` is set.
-/

import RowFormula.Number.Powers
import RowFormula.Pattern.Basic

namespace RowFormula.Pattern

/-- Why a text is no pattern. -/
inductive PatternFault where
  | missingOperand
  | unclosedGroup
  | unopenedGroup
  | unclosedClass
  | unclosedCount
  | invalidCount
  | invalidRange
  | invalidEscape
  | invalidClassItem
  | unknownClass
  | invalidFlags
  | invalidGroupName
  | lookAround
  | backReference
  | notUnicode
  deriving DecidableEq, Repr

namespace PatternFault

def message : PatternFault → String
  | missingOperand => "repetition operator missing expression"
  | unclosedGroup => "unclosed group"
  | unopenedGroup => "unopened group"
  | unclosedClass => "unclosed character class"
  | unclosedCount => "unclosed counted repetition"
  | invalidCount => "invalid repetition count"
  | invalidRange => "invalid character class range"
  | invalidEscape => "unrecognized escape sequence"
  | invalidClassItem => "invalid escape sequence in character class"
  | unknownClass => "unknown character class"
  | invalidFlags => "invalid flags"
  | invalidGroupName => "invalid capture group name"
  | lookAround => "look-around is not supported"
  | backReference => "backreferences are not supported"
  | notUnicode => "pattern can match invalid text"

end PatternFault

/-- The flags of a pattern. -/
structure Flags where
  /-- `i`: case does not matter. -/
  insensitive : Bool := false
  /-- `m`: `^` and `$` stand for starts and ends of lines. -/
  multiline : Bool := false
  /-- `s`: `.` takes line ends too. -/
  dotAll : Bool := false
  /-- `U`: greedy and lazy repetition change roles. -/
  swapGreed : Bool := false
  /-- `u`: classes and boundaries are those of all characters, not only of ASCII. -/
  unicode : Bool := true
  /-- `R`: a carriage return ends a line too. -/
  anyLineEnd : Bool := false
  /-- `x`: blanks and comments are skipped. -/
  ignoreBlanks : Bool := false
  deriving DecidableEq, Repr, Inhabited

/-- Where reading stands. -/
structure ReaderState where
  rest : List Char
  flags : Flags := {}
  /-- How many groups were opened so far. -/
  groups : Nat := 0
  /-- Groups by name. -/
  names : List (String × Nat) := []
  deriving Repr, Inhabited

/-- A step of reading. -/
abbrev Reads (α : Type) : Type := StateT ReaderState (Except PatternFault) α

/-- What stands for itself in a pattern, inside or outside of brackets. -/
inductive Atom where
  | char (c : Char)
  | set (s : CharSet)
  | assertion (a : Assertion)

namespace Reads

def peek : Reads (Option Char) := do
  pure (← get).rest.head?

/-- Drops characters. -/
def drop (n : Nat) : Reads Unit :=
  modify fun s => { s with rest := s.rest.drop n }

/-- Drops blanks and comments, which reach to the end of their line. -/
def dropIgnored : (inComment : Bool) → List Char → List Char
  | _, [] => []
  | true, c :: cs => dropIgnored (c != '\n') cs
  | false, c :: cs =>
    if Text.isBlank c then dropIgnored false cs
    else if c == '#' then dropIgnored true cs
    else c :: cs

/-- The rest of the pattern behind what the flag `x` lets one skip. -/
def skipped (s : ReaderState) (cs : List Char) : List Char :=
  if s.flags.ignoreBlanks then dropIgnored false cs else cs

/-- Skips what the flag `x` lets one skip. -/
def skip : Reads Unit :=
  modify fun s => { s with rest := skipped s s.rest }

/-- Drops one character and skips. -/
def dropAndSkip : Reads Unit := do
  drop 1
  skip

/-- Takes a text if it comes next. -/
def takeIf (front : List Char) : Reads Bool := do
  if front.isPrefixOf (← get).rest then
    drop front.length
    pure true
  else pure false

/-- The next character, or a fault at the end. -/
def demand (fault : PatternFault) : Reads Char := do
  match ← peek with
  | some c => pure c
  | none => throw fault

/-! ### Escapes -/

/-- The set if only ASCII characters are to be told apart, or a fault. -/
def asciiOnly (s : CharSet) (negated : Bool) : Reads CharSet :=
  if negated then throw .notUnicode else pure s

/-- The set of a letter after a backslash. -/
def letterClass (property : Property) (ascii : CharSet) (negated : Bool) : Reads CharSet := do
  if (← get).flags.unicode then pure (CharSet.negatedIf negated (.ofProperty property))
  else asciiOnly ascii negated

/-- A set without regard to case, where the flag `i` is set. -/
def folded (s : CharSet) : Reads CharSet := do
  let flags := (← get).flags
  if !flags.insensitive then pure s
  else if flags.unicode then pure (.caseless s)
  else pure (.combined .intersection (.caseless s) (.range '\x00' '\x7f'))

def hexValue (cs : List Char) : Nat :=
  cs.foldl (fun n c => 16 * n + (if c.isDigit then c.toNat - '0'.toNat
    else c.toLower.toNat - 'a'.toNat + 10)) 0

def isHex (c : Char) : Bool :=
  c.isDigit || ('a' ≤ c && c ≤ 'f') || ('A' ≤ c && c ≤ 'F')

/-- The character with a number in hexadecimal digits. -/
def charOfHex (cs : List Char) : Reads Char :=
  let n := hexValue cs
  if n.isValidChar && cs.all isHex && !cs.isEmpty then pure (Char.ofNat n)
  else throw .invalidEscape

/-- Takes characters, skipping between them where the flag `x` is set. -/
def takeSpaced : (count : Nat) → Reads (List Char)
  | 0 => pure []
  | count + 1 => do
    skip
    let c ← demand .invalidEscape
    drop 1
    pure (c :: (← takeSpaced count))

/-- Takes everything up to a closing brace, and the brace. -/
def takeBraced (fault : PatternFault) : Reads (List Char) := do
  let s ← get
  let taken := s.rest.takeWhile (· != '\x7d')
  let after := s.rest.dropWhile (· != '\x7d')
  match after with
  | [] => throw fault
  | _ :: rest =>
    set { s with rest }
    pure (if s.flags.ignoreBlanks then dropBlanks taken else taken)
where
  /-- Drops the blanks between characters. -/
  dropBlanks (cs : List Char) : List Char := cs.filter fun c => !Text.isBlank c

/-- A character by its number, after the letter that tells the count of digits. -/
def hexEscape (digits : Nat) : Reads Char := do
  skip
  if (← demand .invalidEscape) == '\x7b' then
    drop 1
    charOfHex (← takeBraced .invalidEscape)
  else charOfHex (← takeSpaced digits)

/-- Cuts a text at the first occurrence of one of two characters. -/
def cutAt (cs : List Char) : Option (List Char × List Char) :=
  let key := cs.takeWhile fun c => !(c == ':' || c == '=')
  match cs.drop key.length with
  | [] => none
  | _ :: value => some (key, value)

/-- A set by the name of a property. -/
def propertyEscape (negated : Bool) : Reads CharSet := do
  if !(← get).flags.unicode then throw .notUnicode
  skip
  let c ← demand .invalidEscape
  let found ←
    if c == '\x7b' then do
      drop 1
      let cs ← takeBraced .invalidEscape
      match cutAt cs with
      | none => pure (CharSet.ofPropertyName? (String.ofList cs), false)
      | some (key, value) =>
        let differs := key.getLast? == some '!'
        let key := if differs then key.dropLast else key
        pure (CharSet.ofPropertyValue? (String.ofList key) (String.ofList value), differs)
    else do
      drop 1
      pure (CharSet.ofPropertyName? (String.singleton c), false)
  match found with
  | (some s, differs) => do pure (CharSet.negatedIf (negated != differs) (← folded s))
  | (none, _) => throw .unknownClass

/-- The particular kinds of word boundary by name. -/
def namedBoundary (ascii : Bool) (name : String) : Reads Assertion :=
  match name with
  | "start" => pure (.wordStart ascii)
  | "end" => pure (.wordEnd ascii)
  | "start-half" => pure (.wordStartHalf ascii)
  | "end-half" => pure (.wordEndHalf ascii)
  | _ => throw .invalidEscape

/-- Reads the name of a word boundary in braces. -/
def bracedBoundary (ascii : Bool) : Reads Assertion := do
  drop 1
  namedBoundary ascii (String.ofList (← takeBraced .invalidEscape))

/-- A word boundary, whose kind may be named in braces after `\b`.  Braces that do not start with a
letter are a count. -/
def boundaryEscape : Reads Assertion := do
  let s ← get
  let ascii := !s.flags.unicode
  match s.rest with
  | '\x7b' :: rest =>
    match skipped s rest with
    | [] => throw .invalidEscape
    | c :: _ =>
      if c.isAlpha || c == '-' then bracedBoundary ascii else pure (.wordBoundary ascii)
  | _ => pure (.wordBoundary ascii)

/-- Reads the rest of an escape behind the character that tells its kind. -/
def escapeOf (c : Char) : Reads Atom := do
  let ascii := !(← get).flags.unicode
  match c with
  | 'd' => .set <$> letterClass .digit .asciiDigit false
  | 'D' => .set <$> letterClass .digit .asciiDigit true
  | 's' => .set <$> letterClass .blank .asciiBlank false
  | 'S' => .set <$> letterClass .blank .asciiBlank true
  | 'w' => .set <$> letterClass .word .asciiWord false
  | 'W' => .set <$> letterClass .word .asciiWord true
  | 'p' => .set <$> propertyEscape false
  | 'P' => .set <$> propertyEscape true
  | 'x' => .char <$> hexEscape 2
  | 'u' => .char <$> hexEscape 4
  | 'U' => .char <$> hexEscape 8
  | 'a' => pure (.char '\x07')
  | 'f' => pure (.char '\x0c')
  | 't' => pure (.char '\t')
  | 'n' => pure (.char '\n')
  | 'r' => pure (.char '\r')
  | 'v' => pure (.char '\x0b')
  | 'A' => pure (.assertion .textStart)
  | 'z' => pure (.assertion .textEnd)
  | 'b' => .assertion <$> boundaryEscape
  | 'B' => pure (.assertion (.noWordBoundary ascii))
  | '<' => pure (.assertion (.wordStart ascii))
  | '>' => pure (.assertion (.wordEnd ascii))
  | c =>
    if c.isDigit then throw .backReference
    else if c.toNat < 0x80 && !c.isAlpha then pure (.char c)
    else throw .invalidEscape

/-- Reads an escape behind its backslash. -/
def escape : Reads Atom := do
  let c ← demand .invalidEscape
  drop 1
  escapeOf c

/-- The set of one character. -/
def charSet (c : Char) : Reads CharSet := do
  if !(← get).flags.unicode && 0x80 ≤ c.toNat then throw .notUnicode
  folded (.single c)

/-! ### Bracketed classes -/

/-- Drops hyphens, which stand for themselves at the start of a class. -/
def leadingHyphens : (steps : Nat) → CharSet → Reads CharSet
  | 0, s => pure s
  | steps + 1, s => do
    if (← demand .unclosedClass) == '-' then
      dropAndSkip
      leadingHyphens steps (.union s (.single '-'))
    else pure s

/-- Reads the start of a class behind its bracket: whether it is negated, and the
characters that stand for themselves at this place. -/
def openClass : Reads (Bool × CharSet) := do
  skip
  let negated ←
    if (← demand .unclosedClass) == '^' then do
      dropAndSkip
      pure true
    else pure false
  let hyphens ← leadingHyphens (← get).rest.length .empty
  if hyphens == .empty && (← demand .unclosedClass) == ']' then
    dropAndSkip
    let _ ← demand .unclosedClass
    pure (negated, .single ']')
  else pure (negated, hyphens)

/-- The ASCII class whose name stands in front of `:]`, and what follows. -/
def classNameOf? (negated : Bool) (named : List Char) : Option (CharSet × List Char) :=
  let name := named.takeWhile (· != ':')
  match named.drop name.length, CharSet.ofClassName? (String.ofList name) with
  | ':' :: ']' :: rest, some s => some (CharSet.negatedIf negated s, rest)
  | _, _ => none

/-- The named ASCII class such as `[:alpha:]` that a text starts with, and what follows. -/
def classNameAt? : List Char → Option (CharSet × List Char)
  | '[' :: ':' :: '^' :: named => classNameOf? true named
  | '[' :: ':' :: named => classNameOf? false named
  | _ => none

/-- Reads a named ASCII class, if one comes next. -/
def namedClass? : Reads (Option CharSet) := do
  match classNameAt? (← get).rest with
  | some (set, rest) =>
    modify fun st => { st with rest }
    pure (some set)
  | none => pure none

/-- Reads one item of a class: a character or an escape. -/
def classAtom : Reads Atom := do
  let c ← demand .unclosedClass
  drop 1
  if c == '\\' then escape else pure (.char c)

/-- The set of an item on its own. -/
def itemSet : Atom → Reads CharSet
  | .char c => do
    if !(← get).flags.unicode && 0x80 ≤ c.toNat then throw .notUnicode
    pure (.single c)
  | .set s => pure s
  | .assertion _ => throw .invalidClassItem

/-- Reads the end of a range, from the hyphen on. -/
def rangeFrom (first : Atom) : Reads CharSet := do
  dropAndSkip
  match first, ← classAtom with
  | .char a, .char b => if a ≤ b then pure (.range a b) else throw .invalidRange
  | _, _ => throw .invalidRange

/-- Reads an item of a class, or a range between two of them.  A hyphen in front of a
closing bracket or of another hyphen makes no range. -/
def classItem : Reads CharSet := do
  let first ← classAtom
  skip
  let c ← demand .unclosedClass
  let s ← get
  let behind := (skipped s (s.rest.drop 1)).head?
  if c != '-' || behind == some ']' || behind == some '-' then itemSet first
  else rangeFrom first

/-- Finishes an operation between the set to its left and the items to its right. -/
def closeOperation (pending : Option (SetOp × CharSet)) (items : CharSet) : Reads CharSet :=
  match pending with
  | none => pure items
  | some (op, left) => do pure (.combined op (← folded left) (← folded items))

/-- The operation that a text starts with, if any. -/
def setOpAt? : List Char → Option SetOp
  | '&' :: '&' :: _ => some .intersection
  | '-' :: '-' :: _ => some .difference
  | '~' :: '~' :: _ => some .symmetricDifference
  | _ => none

/-- The set of a class whose items were read. -/
def closeClass (negated : Bool) (s : CharSet) : Reads CharSet := do
  let s ← folded s
  if negated && !(← get).flags.unicode then throw .notUnicode
  pure (CharSet.negatedIf negated s)

/-- Reads a class within a class, whose bracket comes next.  `inner` reads its items up to their
closing bracket. -/
def innerClass (inner : CharSet → Reads CharSet) : Reads CharSet := do
  match ← namedClass? with
  | some s => pure s
  | none =>
    drop 1
    let (negated, start) ← openClass
    closeClass negated (← inner start)

/-- Reads a class up to its closing bracket.  `items` are those read since the last
operation.  Every step takes at least one character. -/
def classItems : (steps : Nat) → (pending : Option (SetOp × CharSet)) → (items : CharSet) →
    Reads CharSet
  | 0, _, _ => throw .unclosedClass
  | steps + 1, pending, items => do
    skip
    let c ← demand .unclosedClass
    if c == ']' then
      drop 1
      closeOperation pending items
    else if c == '[' then
      let set ← innerClass (classItems steps none)
      classItems steps pending (.union items set)
    else
      match setOpAt? (← get).rest with
      | some op =>
        drop 2
        let left ← closeOperation pending items
        classItems steps (some (op, left)) .empty
      | none =>
        let item ← classItem
        classItems steps pending (.union items item)

/-- Reads a class behind its opening bracket. -/
def bracketClass : Reads CharSet := do
  let (negated, start) ← openClass
  closeClass negated (← classItems ((← get).rest.length + 1) none start)

/-! ### Repetition -/

/-- Drops blanks, whatever the flags. -/
def dropBlanks : Reads Unit :=
  modify fun s => { s with rest := Text.trimFront s.rest }

/-- Takes the digits that come next. -/
def digits : Reads (List Char) := do
  let taken := (← get).rest.takeWhile Char.isDigit
  drop taken.length
  pure taken

/-- Reads a count, which may be absent and has blanks around it. -/
def count? : Reads (Option Nat) := do
  dropBlanks
  let taken ← digits
  dropBlanks
  if taken.isEmpty then pure none
  else
    let n := taken.foldl (fun n c => 10 * n + (c.toNat - '0'.toNat)) 0
    if n < Number.twoTo 32 then pure (some n) else throw .invalidCount

/-- A count that must be there. -/
def required (n : Option Nat) : Reads Nat :=
  match n with
  | some n => pure n
  | none => throw .invalidCount

/-- Reads the limits of a counted repetition up to their closing brace. -/
def bounds : Reads (Nat × Option Nat) := do
  let first ← count?
  if (← demand .unclosedCount) == ',' then
    dropAndSkip
    if (← demand .unclosedCount) == '\x7d' then pure (← required first, none)
    else
      let least ← required first
      let most ← required (← count?)
      pure (least, some most)
  else
    let n ← required first
    pure (n, some n)

/-- Reads the closing brace of a counted repetition. -/
def closeCount (bounds : Nat × Option Nat) : Reads (Nat × Option Nat) := do
  if (← peek) != some '\x7d' then throw .unclosedCount
  drop 1
  if bounds.2.any (· < bounds.1) then throw .invalidCount
  pure bounds

/-- Reads the limits of a counted repetition behind its opening brace. -/
def limits : Reads (Nat × Option Nat) := do
  skip
  let _ ← demand .unclosedCount
  closeCount (← bounds)

/-- A repetition, after the mark that may make it lazy. -/
def repetition (p : Pattern) (least : Nat) (most : Option Nat) : Reads Pattern := do
  let lazy ← takeIf ['?']
  let swap := (← get).flags.swapGreed
  pure (.repeated p least most (lazy == swap))

/-! ### Groups -/

/-- Enters a flag by its letter. -/
def Flags.set? (f : Flags) (letter : Char) (on : Bool) : Option Flags :=
  match letter with
  | 'i' => some { f with insensitive := on }
  | 'm' => some { f with multiline := on }
  | 's' => some { f with dotAll := on }
  | 'U' => some { f with swapGreed := on }
  | 'u' => some { f with unicode := on }
  | 'R' => some { f with anyLineEnd := on }
  | 'x' => some { f with ignoreBlanks := on }
  | _ => none

/-- Reads the letters of flags.  A letter must not come twice, and there is at most
one hyphen, which must not come last. -/
def flagLetters : List Char → (seen : List Char) → Flags → Except PatternFault (Flags × List Char)
  | [], _, _ => throw .invalidFlags
  | c :: cs, seen, f =>
    if c == ':' || c == ')' then
      if seen.head? == some '-' then throw .invalidFlags else pure (f, c :: cs)
    else if seen.contains c then throw .invalidFlags
    else if c == '-' then flagLetters cs (c :: seen) f
    else
      match Flags.set? f c (!seen.contains '-') with
      | some f => flagLetters cs (c :: seen) f
      | none => throw .invalidFlags

/-- Characters of the names of groups. -/
def isNameChar (isFirst : Bool) (c : Char) : Bool :=
  if c == '_' then true
  else if isFirst then Text.isAlphabetic c
  else c == '.' || c == '[' || c == ']' || Text.isAlphabetic c ||
    Text.isOf Text.Category.numerals c

/-- Reads the name of a group, and the mark behind it. -/
def groupName : Reads String := do
  let s ← get
  let name := s.rest.takeWhile (· != '>')
  match name, s.rest.drop name.length with
  | c :: cs, '>' :: rest =>
    let text := String.ofList name
    if isNameChar true c && cs.all (isNameChar false) && (s.names.lookup text).isNone then
      set { s with rest }
      pure text
    else throw .invalidGroupName
  | _, _ => throw .invalidGroupName

/-- Opens a recorded group, giving its number. -/
def openGroup (name : Option String) : Reads Nat := do
  let s ← get
  let number := s.groups + 1
  let names := (name.toList.map fun n => (n, number)) ++ s.names
  set { s with groups := number, names }
  pure number

/-- What an opening parenthesis starts. -/
inductive Opening where
  | recorded (number : Nat)
  /-- A group that is not recorded, with its flags. -/
  | plain (flags : Flags)
  /-- Flags for the rest of the group around. -/
  | settings (flags : Flags)

/-- Reads a group with a name behind the mark that announces it. -/
def namedGroup : Reads Opening := do
  let name ← groupName
  .recorded <$> openGroup (some name)

/-- Reads flags behind a question mark, which hold in a group of their own or from here on. -/
def flagGroup : Reads Opening := do
  let s ← get
  if s.rest.isEmpty then throw .unclosedGroup
  let (flags, rest) ← flagLetters s.rest [] s.flags
  set { s with rest := rest.drop 1 }
  if rest.head? == some ')' then
    if s.rest.head? == some ')' then throw .missingOperand
    pure (.settings flags)
  else pure (.plain flags)

/-- Whether what follows an opening parenthesis asks to look around. -/
def looksAround (rest : List Char) : Bool :=
  [['?', '='], ['?', '!'], ['?', '<', '='], ['?', '<', '!']].any (·.isPrefixOf rest)

/-- Reads the marks that tell the kind of a group. -/
def groupKind : Reads Opening := do
  if looksAround (← get).rest then throw .lookAround
  if ← takeIf ['?', 'P', '<'] then namedGroup
  else if ← takeIf ['?', '<'] then namedGroup
  else if ← takeIf ['?'] then flagGroup
  else .recorded <$> openGroup none

/-- Reads what follows an opening parenthesis. -/
def opening : Reads Opening := do
  skip
  groupKind

/-! ### Patterns -/

/-- The pattern of any character but those that end lines. -/
def dot : Reads Pattern := do
  let f := (← get).flags
  if !f.unicode then throw .notUnicode
  if f.dotAll then pure (.oneOf .full)
  else if f.anyLineEnd then
    pure (.oneOf (.complement (.union (.single '\r') (.single '\n'))))
  else pure (.oneOf (.complement (.single '\n')))

/-- The start of the text or of a line. -/
def startAnchor (f : Flags) : Assertion :=
  if !f.multiline then .textStart else if f.anyLineEnd then .anyLineStart else .lineStart

/-- The end of the text or of a line. -/
def endAnchor (f : Flags) : Assertion :=
  if !f.multiline then .textEnd else if f.anyLineEnd then .anyLineEnd else .lineEnd

def ofAtom : Atom → Reads Pattern
  | .char c => .oneOf <$> charSet c
  | .set s => pure (.oneOf s)
  | .assertion a => pure (.assertion a)

/-- A piece of a sequence.  Flags are a piece that cannot be repeated. -/
inductive Piece where
  | pattern (p : Pattern)
  | settings

/-- Pieces, of which the last was read first, in sequence. -/
def sequence (pieces : List Piece) : Pattern :=
  pieces.foldl (fun tail piece =>
    match piece, tail with
    | .settings, tail => tail
    | .pattern p, .empty => p
    | .pattern p, tail => .seq p tail) .empty

/-- Takes the last piece out, which a repetition is about. -/
def lastPiece : List Piece → Reads (Pattern × List Piece)
  | .pattern p :: pieces => pure (p, pieces)
  | _ => throw .missingOperand

/-- Alternatives, of which the last was read first. -/
def alternatives (last : Pattern) (earlier : List Pattern) : Pattern :=
  earlier.foldl (fun tail p => .either p tail) last

/-- Reads a mark that repeats the last piece. -/
def mark (pieces : List Piece) (least : Nat) (most : Option Nat) : Reads (List Piece) := do
  let (p, pieces) ← lastPiece pieces
  drop 1
  pure (.pattern (← repetition p least most) :: pieces)

/-- Reads a counted repetition of the last piece. -/
def countedMark (pieces : List Piece) : Reads (List Piece) := do
  let (p, pieces) ← lastPiece pieces
  drop 1
  let (least, most) ← limits
  skip
  pure (.pattern (← repetition p least most) :: pieces)

/-- Reads the piece that starts with a character, or what it does to the pieces so far, of which
the last was read first. -/
def piece (c : Char) (pieces : List Piece) : Reads (List Piece) :=
  match c with
  | '?' => mark pieces 0 (some 1)
  | '*' => mark pieces 0 none
  | '+' => mark pieces 1 none
  | '\x7b' => countedMark pieces
  | '[' => do
    drop 1
    pure (.pattern (.oneOf (← bracketClass)) :: pieces)
  | '.' => do
    drop 1
    pure (.pattern (← dot) :: pieces)
  | '^' => do
    drop 1
    pure (.pattern (.assertion (startAnchor (← get).flags)) :: pieces)
  | '$' => do
    drop 1
    pure (.pattern (.assertion (endAnchor (← get).flags)) :: pieces)
  | '\\' => do
    drop 1
    pure (.pattern (← ofAtom (← escape)) :: pieces)
  | c => do
    drop 1
    pure (.pattern (← ofAtom (.char c)) :: pieces)

/-- Reads the end of a group and brings back the flags around it. -/
def closeGroup (outer : Flags) : Reads Unit := do
  if (← peek) != some ')' then throw .unclosedGroup
  drop 1
  modify fun s => { s with flags := outer }

/-- Reads a group, or flags for the rest of the group around.  `inner` reads up to the end of the
group. -/
def group (inner : Reads Pattern) (pieces : List Piece) : Reads (List Piece) := do
  drop 1
  let outer := (← get).flags
  match ← opening with
  | .settings flags => do
    modify fun s => { s with flags }
    pure (.settings :: pieces)
  | .recorded number => do
    let p ← inner
    closeGroup outer
    pure (.pattern (.capture number p) :: pieces)
  | .plain flags => do
    modify fun s => { s with flags }
    let p ← inner
    closeGroup outer
    pure (.pattern p :: pieces)

/-- Reads up to the end of a group or of the text.  `pieces` are those of the current
alternative and `earlier` the alternatives before it, each from the last to the
first.  Every step takes at least one character. -/
def alternation : (steps : Nat) → (pieces : List Piece) → (earlier : List Pattern) →
    Reads Pattern
  | 0, _, _ => throw .unclosedGroup
  | steps + 1, pieces, earlier => do
    skip
    match ← peek with
    | none | some ')' => pure (alternatives (sequence pieces) earlier)
    | some '|' => do
      drop 1
      alternation steps [] (sequence pieces :: earlier)
    | some '(' => do
      alternation steps (← group (alternation steps [] []) pieces) earlier
    | some c => do
      alternation steps (← piece c pieces) earlier

/-- Reads a whole pattern. -/
def whole : Reads Pattern := do
  let p ← alternation ((← get).rest.length + 1) [] []
  if (← peek).isSome then throw .unopenedGroup
  pure p

end Reads

/-- A pattern with the names of its groups. -/
structure Named where
  pattern : Pattern
  names : List (String × Nat) := []
  deriving DecidableEq, Repr, Inhabited

/-- Reads a pattern. -/
def read (text : String) : Except PatternFault Named := do
  let (pattern, s) ← Reads.whole.run { rest := text.toList }
  pure ⟨pattern, s.names⟩

end RowFormula.Pattern
