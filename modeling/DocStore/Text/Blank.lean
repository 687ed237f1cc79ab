import DocStore.Text.CodeRange

/-!
# White space

The blank characters: those with the Unicode property White_Space and
the four information separators U+001C to U+001F. `strip` removes them
from both ends of a text.
-/

namespace DocStore.Text

/-- Code points of the 29 blank characters. -/
def blankRanges : List (Nat × Nat) :=
  [(0x9, 0xD), (0x1C, 0x20), (0x85, 0x85), (0xA0, 0xA0), (0x1680, 0x1680), (0x2000, 0x200A),
   (0x2028, 0x2029), (0x202F, 0x202F), (0x205F, 0x205F), (0x3000, 0x3000)]

/-- A blank character. -/
def isBlank (c : Char) : Bool :=
  inRanges blankRanges c.toNat

theorem blankRanges_ok : rangesOK blankRanges = true := by decide

/-- Drops the blanks in front. -/
def stripLeft (cs : List Char) : List Char :=
  cs.dropWhile isBlank

/-- Drops the blanks at the end. -/
def stripRight (cs : List Char) : List Char :=
  (cs.reverse.dropWhile isBlank).reverse

/-- Drops the blanks at both ends. -/
def strip (cs : List Char) : List Char :=
  stripRight (stripLeft cs)

end DocStore.Text
