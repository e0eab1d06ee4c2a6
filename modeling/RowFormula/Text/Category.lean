/-
# General categories

Every character belongs to exactly one general category.  The properties at the end
of this module are unions of categories with a few characters added.
-/

import RowFormula.Text.Category.Letter
import RowFormula.Text.Category.Mark
import RowFormula.Text.Category.Numeral
import RowFormula.Text.Category.Punctuation
import RowFormula.Text.Category.Sign
import RowFormula.Text.Blank

namespace RowFormula.Text

/-- The general categories of characters. -/
inductive Category where
  | capitalLetter
  | smallLetter
  | titleLetter
  | modifierLetter
  | otherLetter
  | nonspacingMark
  | spacingMark
  | enclosingMark
  | decimalDigit
  | letterNumeral
  | otherNumeral
  | connector
  | dash
  | openBracket
  | closeBracket
  | initialQuote
  | finalQuote
  | otherPunctuation
  | mathSign
  | currencySign
  | modifierSign
  | otherSign
  | blank
  | lineSeparator
  | paragraphSeparator
  | control
  | format
  | privateUse
  | unassigned
  deriving DecidableEq, Repr

namespace Category

/-- Format characters, which show nothing themselves. -/
def formats : List StepRow :=
  [ ⟨0xAD, 0xAD, 1⟩, ⟨0x600, 0x605, 1⟩, ⟨0x61C, 0x61C, 1⟩, ⟨0x6DD, 0x6DD, 1⟩,
    ⟨0x70F, 0x70F, 1⟩, ⟨0x890, 0x891, 1⟩, ⟨0x8E2, 0x8E2, 1⟩, ⟨0x180E, 0x180E, 1⟩,
    ⟨0x200B, 0x200F, 1⟩, ⟨0x202A, 0x202E, 1⟩, ⟨0x2060, 0x2064, 1⟩, ⟨0x2066, 0x206F, 1⟩,
    ⟨0xFEFF, 0xFEFF, 1⟩, ⟨0xFFF9, 0xFFFB, 1⟩, ⟨0x110BD, 0x110BD, 1⟩, ⟨0x110CD, 0x110CD, 1⟩,
    ⟨0x13430, 0x1343F, 1⟩, ⟨0x1BCA0, 0x1BCA3, 1⟩, ⟨0x1D173, 0x1D17A, 1⟩,
    ⟨0xE0001, 0xE0001, 1⟩, ⟨0xE0020, 0xE007F, 1⟩ ]

/-- Blanks that separate words. -/
def blanks : List StepRow :=
  [ ⟨0x20, 0x20, 1⟩, ⟨0xA0, 0xA0, 1⟩, ⟨0x1680, 0x1680, 1⟩, ⟨0x2000, 0x200A, 1⟩,
    ⟨0x202F, 0x202F, 1⟩, ⟨0x205F, 0x205F, 1⟩, ⟨0x3000, 0x3000, 1⟩ ]

/-- All categories with their short and long names and their characters.
Unassigned are the characters that no row holds. -/
def table : List (Category × String × String × List StepRow) :=
  [ (capitalLetter, "lu", "uppercaseletter", capitalLetters),
    (smallLetter, "ll", "lowercaseletter", smallLetters),
    (titleLetter, "lt", "titlecaseletter", titleLetters),
    (modifierLetter, "lm", "modifierletter", modifierLetters),
    (otherLetter, "lo", "otherletter", otherLetters),
    (nonspacingMark, "mn", "nonspacingmark", nonspacingMarks),
    (spacingMark, "mc", "spacingmark", spacingMarks),
    (enclosingMark, "me", "enclosingmark", enclosingMarks),
    (decimalDigit, "nd", "decimalnumber", decimalDigits),
    (letterNumeral, "nl", "letternumber", letterNumerals),
    (otherNumeral, "no", "othernumber", otherNumerals),
    (connector, "pc", "connectorpunctuation", connectors),
    (dash, "pd", "dashpunctuation", dashes),
    (openBracket, "ps", "openpunctuation", openBrackets),
    (closeBracket, "pe", "closepunctuation", closeBrackets),
    (initialQuote, "pi", "initialpunctuation", initialQuotes),
    (finalQuote, "pf", "finalpunctuation", finalQuotes),
    (otherPunctuation, "po", "otherpunctuation", otherPunctuationMarks),
    (mathSign, "sm", "mathsymbol", mathSigns),
    (currencySign, "sc", "currencysymbol", currencySigns),
    (modifierSign, "sk", "modifiersymbol", modifierSigns),
    (otherSign, "so", "othersymbol", otherSigns),
    (blank, "zs", "spaceseparator", blanks),
    (lineSeparator, "zl", "lineseparator", [⟨0x2028, 0x2028, 1⟩]),
    (paragraphSeparator, "zp", "paragraphseparator", [⟨0x2029, 0x2029, 1⟩]),
    (control, "cc", "control", [⟨0, 0x1F, 1⟩, ⟨0x7F, 0x9F, 1⟩]),
    (format, "cf", "format", formats),
    (privateUse, "co", "privateuse",
      [⟨0xE000, 0xF8FF, 1⟩, ⟨0xF0000, 0xFFFFD, 1⟩, ⟨0x100000, 0x10FFFD, 1⟩]),
    (unassigned, "cn", "unassigned", []) ]

/-- The category of a character. -/
def of (c : Char) : Category :=
  match table.find? fun (_, _, _, rows) => inRows rows c with
  | some (category, _) => category
  | none => unassigned

def letters : List Category :=
  [capitalLetter, smallLetter, titleLetter, modifierLetter, otherLetter]

def marks : List Category := [nonspacingMark, spacingMark, enclosingMark]

def numerals : List Category := [decimalDigit, letterNumeral, otherNumeral]

def punctuation : List Category :=
  [connector, dash, openBracket, closeBracket, initialQuote, finalQuote, otherPunctuation]

def signs : List Category := [mathSign, currencySign, modifierSign, otherSign]

def separators : List Category := [blank, lineSeparator, paragraphSeparator]

def others : List Category := [control, format, privateUse, unassigned]

/-- The categories that a name stands for, the name being in small letters. -/
def ofName? (name : String) : Option (List Category) :=
  match name with
  | "l" | "letter" => some letters
  | "lc" | "casedletter" => some [capitalLetter, smallLetter, titleLetter]
  | "m" | "mark" | "combiningmark" => some marks
  | "n" | "number" => some numerals
  | "p" | "punctuation" | "punct" => some punctuation
  | "s" | "symbol" => some signs
  | "z" | "separator" => some separators
  | "c" | "other" => some others
  | "digit" => some [decimalDigit]
  | "cntrl" => some [control]
  | _ =>
    (table.find? fun (_, short, long, _) => short == name || long == name).map fun e => [e.1]

end Category

/-- Whether a character belongs to one of some categories. -/
def isOf (categories : List Category) (c : Char) : Bool :=
  categories.contains (Category.of c)

/-- Signs that count as letters: letters in circles and squares. -/
def enclosedLetters : List (Nat × Nat) :=
  [(0x24B6, 0x24E9), (0x1F130, 0x1F149), (0x1F150, 0x1F169), (0x1F170, 0x1F189)]

/-- Letters, numerals that are letters, and letters in circles and squares. -/
def isAlphabetic (c : Char) : Bool :=
  isOf (.letterNumeral :: Category.letters) c || inRanges enclosedLetters c

/-- The characters of words: letters, marks, digits, connectors, and the two
characters that join or separate letters without showing. -/
def isWordChar (c : Char) : Bool :=
  if c.toNat < 0x80 then c.isAlphanum || c == '_'
  else
    isAlphabetic c || isOf (.decimalDigit :: .connector :: Category.marks) c ||
      c.toNat == 0x200C || c.toNat == 0x200D

/-- Decimal digits of all scripts. -/
def isDecimalDigit (c : Char) : Bool :=
  if c.toNat < 0x80 then c.isDigit else isOf [.decimalDigit] c

/-- Capital letters, with capital numerals and capital letters in circles and
squares. -/
def isUppercase (c : Char) : Bool :=
  isOf [.capitalLetter] c ||
    inRanges [(0x2160, 0x216F), (0x24B6, 0x24CF), (0x1F130, 0x1F149), (0x1F150, 0x1F169),
      (0x1F170, 0x1F189)] c

/-- Small letters, with small numerals, small letters in circles, and small letters
that modify others. -/
def isLowercase (c : Char) : Bool :=
  isOf [.smallLetter] c ||
    inRanges [(0xAA, 0xAA), (0xBA, 0xBA), (0x2B0, 0x2B8), (0x2C0, 0x2C1), (0x2E0, 0x2E4),
      (0x345, 0x345), (0x37A, 0x37A), (0x10FC, 0x10FC), (0x1D2C, 0x1D6A), (0x1D78, 0x1D78),
      (0x1D9B, 0x1DBF), (0x2071, 0x2071), (0x207F, 0x207F), (0x2090, 0x209C),
      (0x2170, 0x217F), (0x24D0, 0x24E9), (0x2C7C, 0x2C7D), (0xA69C, 0xA69D),
      (0xA770, 0xA770), (0xA7F2, 0xA7F4), (0xA7F8, 0xA7F9), (0xAB5C, 0xAB5F),
      (0xAB69, 0xAB69), (0x10780, 0x10780), (0x10783, 0x10785), (0x10787, 0x107B0),
      (0x107B2, 0x107BA), (0x1E030, 0x1E06D)] c

/-- Characters that only extend the one before them. -/
def extendsPrevious (c : Char) : Bool :=
  isOf [.nonspacingMark, .enclosingMark] c ||
    inRanges [(0x9BE, 0x9BE), (0x9D7, 0x9D7), (0xB3E, 0xB3E), (0xB57, 0xB57), (0xBBE, 0xBBE),
      (0xBD7, 0xBD7), (0xCC2, 0xCC2), (0xCD5, 0xCD6), (0xD3E, 0xD3E), (0xD57, 0xD57),
      (0xDCF, 0xDCF), (0xDDF, 0xDDF), (0x1B35, 0x1B35), (0x302E, 0x302F),
      (0x1133E, 0x1133E), (0x11357, 0x11357), (0x114B0, 0x114B0), (0x114BD, 0x114BD),
      (0x115AF, 0x115AF), (0x11930, 0x11930), (0x1D165, 0x1D165), (0x1D16E, 0x1D172),
      (0x200C, 0x200C), (0xFF9E, 0xFF9F), (0xE0020, 0xE007F)] c

end RowFormula.Text
