import DocStore.Text.Blank
import DocStore.Validation.Issue

/-!
# Integers given as text

A text may show an integer in one strict form (`strictInteger?`): digits
that start with no zero, a minus in front if need be. Other texts are
put into this form if they can be (`strictForm?`): blanks around, a
plus, zeros in front, a point with zeros behind it and single
underscores between digits are left out. An integer in strict form may
be so long that it is refused for its length alone; what becomes too
long on the way is refused as unreadable.
-/

namespace DocStore.Validation

/-! ## The strict form -/

/-- The greatest number of characters of an integer given as text. -/
def maxTextLength : Nat := 4300

/-- Splits off a minus. -/
def splitMinus : List Char → Bool × List Char
  | '-' :: cs => (true, cs)
  | cs => (false, cs)

/-- The number of characters of the integer at the head of a text: a
minus and digits that start with no zero. -/
def leadingLength (cs : List Char) : Nat :=
  let (negative, ds) := splitMinus cs
  if ds.head? = some '0' then 0
  else (ds.takeWhile Char.isDigit).length + (if negative then 1 else 0)

/-- The integer that a text shows in strict form. -/
def strictInteger? (cs : List Char) : Option Int :=
  let (negative, ds) := splitMinus cs
  if ds.isEmpty || !ds.all Char.isDigit || (ds.head? = some '0' && ds.length ≠ 1) ||
      maxTextLength < cs.length then
    none
  else
    let n := Nat.ofDigitChars 10 ds 0
    some (if negative then -(n : Int) else n)

/-! ## Other forms -/

/-- A blank that may stand around an integer. -/
def isMargin (c : Char) : Bool :=
  Text.isBlank c && !(0x1C ≤ c.toNat && c.toNat ≤ 0x1F)

def trimMargins (cs : List Char) : List Char :=
  ((cs.dropWhile isMargin).reverse.dropWhile isMargin).reverse

/-- Drops further zeros in front of a number, with underscores among
them, up to another digit or a minus; the zero before a point stays, and
so does the last character. -/
def dropMoreZeros (before : Char) : List Char → Option (List Char)
  | [] => some [before]
  | c :: cs =>
      if c = '0' || c = '_' then dropMoreZeros c cs
      else if c.isDigit || c = '-' then some (c :: cs)
      else if c = '.' then some (before :: c :: cs)
      else none

/-- The number without zeros in front of it; it has to start with a
digit. -/
def dropZeros : List Char → Option (List Char)
  | [] => none
  | c :: cs =>
      if c = '0' then dropMoreZeros c cs
      else if c.isDigit then some (c :: cs)
      else none

/-- Cuts off a point with zeros behind it, and nothing else. -/
def dropZeroFraction (cs : List Char) : List Char :=
  match cs.dropWhile (· ≠ '.') with
  | _ :: fraction =>
      if !fraction.isEmpty && fraction.all (· = '0') then cs.takeWhile (· ≠ '.') else cs
  | [] => cs

/-- Two underscores stand side by side. -/
def hasDoubleUnderscore : List Char → Bool
  | '_' :: '_' :: _ => true
  | _ :: cs => hasDoubleUnderscore cs
  | [] => false

/-- Drops single underscores inside a number. -/
def dropInnerUnderscores (cs : List Char) : Option (List Char) :=
  if cs.head? = some '_' || cs.getLast? = some '_' || hasDoubleUnderscore cs then none
  else some (cs.filter (· ≠ '_'))

/-- The text in strict form, as far as it can be put into it. -/
def strictForm? (cs : List Char) : Option (List Char) := do
  let trimmed := trimMargins cs
  let (minus, body) :=
    match trimmed with
    | '-' :: body => (['-'], body)
    | '+' :: body => ([], body)
    | body => ([], body)
  let digits ← dropInnerUnderscores (dropZeroFraction (← dropZeros body))
  return minus ++ digits

/-- The integer that a text shows. -/
def textInteger (s : String) : Except Fault Int :=
  let cs := s.toList
  if maxTextLength < leadingLength cs then
    .error .integerTooLong
  else
    (strictForm? cs >>= strictInteger?).elim (.error .integerUnreadable) .ok

end DocStore.Validation
