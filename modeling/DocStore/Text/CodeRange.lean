/-!
# Code point ranges

A character class is a list of closed ranges of code points, ascending
and apart; a simple case mapping is a list of arithmetic runs of code
points that move by one distance. `inRanges` and `Shift.find?` look a
code point up. All tables of this library state Unicode 14.
-/

namespace DocStore.Text

/-- The code point lies in one of the closed ranges. -/
def inRanges (ranges : List (Nat × Nat)) (n : Nat) : Bool :=
  ranges.any fun r => r.1 ≤ n && n ≤ r.2

/-- Every range is non-empty and ends below the start of the next
one. -/
def rangesOK : List (Nat × Nat) → Bool
  | [] => true
  | [r] => r.1 ≤ r.2
  | r :: s :: rest => r.1 ≤ r.2 && r.2 < s.1 && rangesOK (s :: rest)

/-- The code points `first`, `first + step`, … `last`, which all move by
`distance`. -/
structure Shift where
  first : Nat
  last : Nat
  step : Nat
  distance : Int

/-- The image of a code point under the run, if the run holds it. -/
def Shift.image? (s : Shift) (n : Nat) : Option Nat :=
  if s.first ≤ n && n ≤ s.last && (n - s.first) % s.step == 0 then
    some ((n : Int) + s.distance).toNat
  else
    none

/-- The image of a code point under the first run that holds it. -/
def Shift.find? (shifts : List Shift) (n : Nat) : Option Nat :=
  shifts.findSome? (·.image? n)

end DocStore.Text
