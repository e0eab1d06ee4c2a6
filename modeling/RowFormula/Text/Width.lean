/-
# Display width

How many columns of a terminal a character takes.
-/

import RowFormula.Text.Category
import RowFormula.Text.Width.Table

namespace RowFormula.Text

/-- Whether a character takes no column: marks that are drawn onto other characters,
characters that are ignored unless a program knows them, and the vowels and finals
of Hangul syllables. -/
def isWidthless (c : Char) : Bool :=
  isOf [.nonspacingMark, .enclosingMark] c ||
    inRanges [(0x61C, 0x61C), (0x115F, 0x11FF), (0x180E, 0x180E), (0x200B, 0x200F),
      (0x202A, 0x202E), (0x2060, 0x206F), (0x3164, 0x3164), (0xFEFF, 0xFEFF),
      (0xFFA0, 0xFFA0), (0xFFF0, 0xFFF8), (0x1BCA0, 0x1BCA3), (0x1D173, 0x1D17A),
      (0xE0000, 0xE00FF), (0xE01F0, 0xE0FFF)] c

/-- Columns of a character. -/
def width (c : Char) : Nat :=
  if c.toNat < 0x80 then 1
  else if isWidthless c then 0
  else if inRanges Width.wideRanges c then 2
  else 1

end RowFormula.Text
