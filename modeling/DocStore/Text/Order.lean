/-!
# The order of texts

Texts are ordered by code points, a text before its extensions.
`sortTexts` puts a list in this order by insertion.
-/

namespace DocStore.Text

/-- Three-way comparison by code points. -/
def compareChars : List Char → List Char → Ordering
  | [], [] => .eq
  | [], _ :: _ => .lt
  | _ :: _, [] => .gt
  | a :: as, b :: bs => (compare a.toNat b.toNat).then (compareChars as bs)

/-- Three-way comparison of texts by code points. -/
def compareStrings (a b : String) : Ordering :=
  compareChars a.toList b.toList

/-- Puts an entry in front of the first one with a greater key. -/
def insertByKey {α : Type} (key : α → String) (x : α) : List α → List α
  | [] => [x]
  | y :: ys =>
      if compareStrings (key x) (key y) == .lt then x :: y :: ys else y :: insertByKey key x ys

/-- The entries in the order of their keys; entries of one key stay in
order. -/
def sortByKey {α : Type} (key : α → String) (xs : List α) : List α :=
  xs.foldl (fun sorted x => insertByKey key x sorted) []

/-- The texts in order. -/
def sortTexts (texts : List String) : List String :=
  sortByKey id texts

end DocStore.Text
