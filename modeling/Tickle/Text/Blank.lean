import Tickle.Text.CodeRanges

/-!
Blank characters: the white space of Unicode, together with the four information separators
U+001C to U+001F. Two of them, carriage return and line feed, end a line.
-/

namespace Tickle.Text

def blankRanges : CodeRanges :=
  [(0x9, 0xD), (0x1C, 0x20), (0x85, 0x85), (0xA0, 0xA0), (0x1680, 0x1680), (0x2000, 0x200A),
   (0x2028, 0x2029), (0x202F, 0x202F), (0x205F, 0x205F), (0x3000, 0x3000)]

def isBlank (c : Char) : Bool := blankRanges.holds c.toNat

/-- Ends a command and a comment. -/
def isLineEnd (c : Char) : Bool := c == '\r' || c == '\n'

theorem isBlank_of_isLineEnd {c : Char} (h : isLineEnd c = true) : isBlank c = true := by
  rcases (by simpa [isLineEnd] using h : c = '\r' ∨ c = '\n') with rfl | rfl <;> decide

end Tickle.Text
