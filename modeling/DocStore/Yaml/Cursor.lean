import DocStore.Yaml.Fault

/-!
# Places in a YAML text

A cursor stands at a place of a text and knows its line and column, on
which the structure of a document rests. Four characters break lines;
two of them are kept when a scalar is put together from several lines.
-/

namespace DocStore.Yaml

/-! ## Characters -/

/-- A character that ends a line. -/
def isBreak (c : Char) : Bool :=
  c = '\n' || c.toNat = 0x85 || c.toNat = 0x2028 || c.toNat = 0x2029

/-- A blank inside a line. -/
def isSpace (c : Char) : Bool := c = ' ' || c = '\t'

/-- The mark that may start a text, to show its encoding. -/
def byteOrderMark : Char := Char.ofNat 0xFEFF

/-- The line break that a character stands for in a scalar. -/
def breakValue (c : Char) : Char :=
  if c.toNat = 0x2028 || c.toNat = 0x2029 then c else '\n'

/-- What stands in a scalar for a line break and the empty lines behind
it: a single line feed is a blank, one before further breaks nothing. -/
def foldBreaks (first : Char) (more : List Char) : List Char :=
  if first ≠ '\n' then first :: more
  else if more.isEmpty then [' ']
  else more

/-- The text ends here, or a line does. -/
def endsLine : Option Char → Bool
  | none => true
  | some c => isBreak c

/-- The text ends here, or a line or a word that may not hold blanks
does. -/
def endsName : Option Char → Bool
  | none => true
  | some c => isBreak c || c = ' '

/-- The text, a line or a word ends here. -/
def endsWord : Option Char → Bool
  | none => true
  | some c => isBreak c || isSpace c

/-- A character of the name of an anchor or a directive. -/
def isNameChar (c : Char) : Bool :=
  c.isAlphanum || c = '-' || c = '_'

/-- The value of a hexadecimal digit. -/
def hexDigit? (c : Char) : Option Nat :=
  if c.isDigit then some (c.toNat - '0'.toNat)
  else if 'a' ≤ c.toLower && c.toLower ≤ 'f' then some (c.toLower.toNat - 'a'.toNat + 10)
  else none

/-- The value of hexadecimal digits. -/
def hexValue? (cs : List Char) : Option Nat :=
  cs.foldlM (fun n c => (hexDigit? c).map (n * 16 + ·)) 0

/-! ## Cursors -/

/-- A place in a text. -/
structure Cursor where
  rest : List Char
  index : Nat
  line : Nat
  column : Nat

namespace Cursor

/-- The start of a text. -/
def start (cs : List Char) : Cursor := ⟨cs, 0, 0, 0⟩

/-- The character at a distance from the cursor. -/
def peek (c : Cursor) (n : Nat) : Option Char := c.rest[n]?

/-- The place behind the next character. -/
def next (c : Cursor) : Cursor :=
  match c.rest with
  | [] => c
  | x :: rest =>
      if isBreak x then ⟨rest, c.index + 1, c.line + 1, 0⟩
      else ⟨rest, c.index + 1, c.line, if x = byteOrderMark then c.column else c.column + 1⟩

/-- The place behind a number of characters. -/
def skip (n : Nat) (c : Cursor) : Cursor :=
  match n with
  | 0 => c
  | n + 1 => skip n c.next

/-- The characters in front that pass a test. -/
def word (p : Char → Bool) (c : Cursor) : List Char :=
  c.rest.takeWhile p

/-- The place behind the characters in front that pass a test. -/
def skipWhile (p : Char → Bool) (c : Cursor) : Cursor :=
  c.skip (c.word p).length

/-- The place behind blanks. -/
def skipBlanks (c : Cursor) : Cursor := c.skipWhile (· = ' ')

/-- The place at the end of the line. -/
def skipLine (c : Cursor) : Cursor := c.skipWhile fun x => !isBreak x

/-- The end of the line, if nothing but blanks and a comment come before
it. -/
def skipComment (c : Cursor) : Cursor :=
  let c := c.skipBlanks
  if c.peek 0 = some '#' then c.skipLine else c

/-- The mark between documents that stands here: three characters and
the end of a word. -/
def mark? (c : Cursor) : Option Char :=
  match c.rest with
  | x :: y :: z :: rest =>
      if (x = '-' || x = '.') && y = x && z = x && endsWord rest.head? then some x else none
  | _ => none

end Cursor

end DocStore.Yaml
