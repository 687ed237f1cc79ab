import DocStore.Text.Order

/-!
# Close matches

How alike two texts are: their longest common block, then the longest
common blocks to the left and to the right of it, and so on. The ratio
of the matched characters to all characters, twice the matched over the
sum of the lengths, is at least three fifths for close texts.
-/

namespace DocStore.Text

/-- A common block: its start in either text and its length. -/
structure Block where
  left : Nat
  right : Nat
  size : Nat

/-- The characters of a long text that are too frequent to start a
block: in a text of 200 characters or more, those with more than one
occurrence in a hundred. -/
def isPopular (text : List Char) (c : Char) : Bool :=
  200 ≤ text.length && text.length / 100 + 1 < text.count c

/-- The lengths of the blocks that end at the next character of the left
text and at each of the characters of the right text, from the lengths
that end one character before. -/
def blockRow (popular : Char → Bool) (a : Char) (diagonal : Nat) :
    List Char → List Nat → List Nat
  | b :: bs, n :: ns =>
      (if a = b && !popular b then diagonal + 1 else 0) :: blockRow popular a n bs ns
  | _, _ => []

/-- The longer block of a row and the longest so far; the earlier one if
they are of one length. -/
def longerInRow (row : Nat) (best : Block) (column : Nat) : List Nat → Block
  | [] => best
  | n :: ns =>
      longerInRow row
        (if best.size < n then ⟨row + 1 - n, column + 1 - n, n⟩ else best) (column + 1) ns

/-- The longest common block, the earliest in the left text and then in
the right text. -/
def longestFrom (popular : Char → Bool) (right : List Char) (row : Nat) (previous : List Nat)
    (best : Block) : List Char → Block
  | [] => best
  | a :: as =>
      let lengths := blockRow popular a 0 right previous
      longestFrom popular right (row + 1) lengths (longerInRow row best 0 lengths) as

/-- The number of characters that the texts share at their heads. -/
def sharedHead : List Char → List Char → Nat
  | a :: as, b :: bs => if a = b then sharedHead as bs + 1 else 0
  | _, _ => 0

/-- The longest common block, extended in both directions over equal
characters. -/
def longestBlock (popular : Char → Bool) (left right : List Char) : Block :=
  let core := longestFrom popular right 0 (right.map fun _ => 0) ⟨0, 0, 0⟩ left
  let before := sharedHead (left.take core.left).reverse (right.take core.right).reverse
  let after := sharedHead (left.drop (core.left + core.size)) (right.drop (core.right + core.size))
  ⟨core.left - before, core.right - before, before + core.size + after⟩

/-- The number of characters in all common blocks; `fuel` bounds the
depth of the division. -/
def matched (popular : Char → Bool) : Nat → List Char → List Char → Nat
  | 0, _, _ => 0
  | fuel + 1, left, right =>
      let block := longestBlock popular left right
      if block.size = 0 then
        0
      else
        block.size +
          matched popular fuel (left.take block.left) (right.take block.right) +
          matched popular fuel (left.drop (block.left + block.size))
            (right.drop (block.right + block.size))

/-- The number of matched characters of a candidate and the wanted
text. -/
def matchedWith (wanted candidate : List Char) : Nat :=
  matched (isPopular wanted) (candidate.length + 1) candidate wanted

/-- A candidate with its matched characters and the length of both texts
together. -/
structure Scored where
  text : String
  matched : Nat
  total : Nat

/-- The candidate is close: twice the matched characters are three
fifths of the total or more. -/
def Scored.isClose (s : Scored) : Bool :=
  3 * s.total ≤ 10 * s.matched

/-- The closer of two candidates; of equally close ones the later by
code points. -/
def Scored.better (s t : Scored) : Scored :=
  match compare (s.matched * t.total) (t.matched * s.total) with
  | .gt => s
  | .lt => t
  | .eq => if compareStrings s.text t.text == .lt then t else s

/-- The closest of the candidates that are close. -/
def closest? (wanted : String) (candidates : List String) : Option String :=
  let scored := candidates.map fun c =>
    Scored.mk c (matchedWith wanted.toList c.toList) (wanted.length + c.length)
  match scored.filter Scored.isClose with
  | [] => none
  | s :: rest => some (rest.foldl Scored.better s).text

end DocStore.Text
