/-
# Small and capital letters

The full case mappings of Unicode: a capital form may take several characters, and
the small form of the Greek capital sigma depends on whether it ends a word.
-/

import RowFormula.Text.Case.Table
import RowFormula.Text.Category

namespace RowFormula.Text

namespace Case

/-- Whether a character is a letter with case. -/
def isCased (c : Char) : Bool :=
  isUppercase c || isLowercase c || isOf [.titleLetter] c

/-- Whether a character is skipped when looking for the end of a word: marks,
modifiers, characters that do not show, and the points and apostrophes within
words. -/
def isIgnorable (c : Char) : Bool :=
  isOf [.nonspacingMark, .enclosingMark, .format, .modifierLetter, .modifierSign] c ||
    [0x27, 0x2E, 0x3A, 0xB7, 0x387, 0x55F, 0x5F4, 0x2018, 0x2019, 0x2024, 0x2027, 0xFE13,
      0xFE52, 0xFE55, 0xFF07, 0xFF0E, 0xFF1A].contains c.toNat

/-- Whether the first character that is not skipped is a cased letter. -/
def meetsCased (cs : List Char) : Bool :=
  (cs.dropWhile isIgnorable).head?.any isCased

/-- The small form of a character on its own. -/
def lowerChar (c : Char) : List Char :=
  if c.toNat < 0x80 then [c.toLower]
  else if c = 'İ' then ['i', Char.ofNat 0x307]
  else [ShiftRow.apply lowerRows c]

/-- The capital form of a character. -/
def upperChar (c : Char) : List Char :=
  if c.toNat < 0x80 then [c.toUpper]
  else
    match upperSequences.find? fun row => row.1 == c.toNat with
    | some (_, codes) => codes.map Char.ofNat
    | none => [ShiftRow.apply upperRows c]

/-- The small forms of a text.  `before` holds the characters already passed, the
nearest one first. -/
def lowerAll : (before : List Char) → List Char → List Char
  | _, [] => []
  | before, c :: rest =>
    let small :=
      if c = 'Σ' then
        if meetsCased before && !meetsCased rest then ['ς'] else ['σ']
      else lowerChar c
    small ++ lowerAll (c :: before) rest

end Case

/-- The text in small letters. -/
def lower (s : String) : String :=
  String.ofList (Case.lowerAll [] s.toList)

/-- The text in capital letters. -/
def upper (s : String) : String :=
  String.ofList (s.toList.flatMap Case.upperChar)

end RowFormula.Text
