import Inlay.Text.Basic
import Inlay.Text.CodeRanges

/-!
# Blank characters

A character is blank when it has the bidirectional type of a space or a separator, or is a
space separator: the ASCII spaces and line breaks, the four information separators, the next
line control, and the wide spaces.  The zero width space and the byte order mark are not.
-/

namespace Inlay.Text

/-- The code points of the blank characters. -/
def blankRanges : CodeRanges :=
  [(0x9, 0xD), (0x1C, 0x20), (0x85, 0x85), (0xA0, 0xA0), (0x1680, 0x1680), (0x2000, 0x200A),
   (0x2028, 0x2029), (0x202F, 0x202F), (0x205F, 0x205F), (0x3000, 0x3000)]

theorem blankRanges_increasing :
  blankRanges.increasing = true
  := by
  decide +kernel

/-- Whether a character is blank. -/
def isBlank (c : Char) : Bool :=
  blankRanges.holds c.toNat

/-- A text without the blank characters at its two ends. -/
def trim (t : Text) : Text :=
  dropEndWhile isBlank (t.dropWhile isBlank)

end Inlay.Text
