import DocStore.Number.Notation
import DocStore.Text.Blank
import DocStore.Text.Digit

/-!
# Reading numerals

An integer is a sign and decimal digits of any script; a decimal number
may also have a point and an exponent, or be an infinity or NaN by name.
Blanks around the numeral and single underscores between digits are
allowed. An integer of more than 4300 digits is refused, however small
it is.
-/

namespace DocStore.Text

/-- Why a text is no integer. -/
inductive IntError where
  | malformed
  | tooManyDigits (count : Nat)
deriving DecidableEq

/-- The largest number of digits that an integer may have when it is
read. -/
def maxIntDigits : Nat := 4300

/-- A decimal digit of any script as an ASCII digit, a blank beyond
ASCII as a space. -/
def asciiNumeralChar (c : Char) : Char :=
  if c.toNat < 127 then c
  else if isBlank c then ' '
  else
    match decimalValue? c with
    | some d => Nat.digitChar d
    | none => '?'

/-- A blank around a numeral, once blanks beyond ASCII have become
spaces. -/
def isNumeralBlank (c : Char) : Bool :=
  c = ' ' || (9 ≤ c.toNat && c.toNat ≤ 13)

/-- The numeral in ASCII, without the blanks around it. -/
def asciiNumeral (cs : List Char) : List Char :=
  let ascii := (cs.map asciiNumeralChar).dropWhile isNumeralBlank
  (ascii.reverse.dropWhile isNumeralBlank).reverse

/-- Splits off a sign: whether it is a minus, and the rest. -/
def splitSign : List Char → Bool × List Char
  | '-' :: rest => (true, rest)
  | '+' :: rest => (false, rest)
  | rest => (false, rest)

/-- Drops the underscores that stand between two digits; none if an
underscore stands elsewhere. -/
def dropUnderscores : List Char → Option (List Char)
  | [] => some []
  | '_' :: _ => none
  | [c] => some [c]
  | c :: '_' :: d :: rest =>
      if c.isDigit && d.isDigit then (dropUnderscores (d :: rest)).map (c :: ·) else none
  | c :: rest => (dropUnderscores rest).map (c :: ·)

/-- A non-empty run of ASCII digits, and nothing else. -/
def allDigits (cs : List Char) : Bool :=
  !cs.isEmpty && cs.all Char.isDigit

/-- Reads an integer. Its digits are counted before what follows them is
looked at. -/
def readInt (cs : List Char) : Except IntError Int :=
  let (negative, body) := splitSign (asciiNumeral cs)
  let run := body.takeWhile fun c => c.isDigit || c = '_'
  match dropUnderscores run with
  | none => .error .malformed
  | some ds =>
      if maxIntDigits < ds.length then
        .error (.tooManyDigits ds.length)
      else if ds.isEmpty || run.length < body.length then
        .error .malformed
      else
        let n := Nat.ofDigitChars 10 ds 0
        .ok (if negative then -(n : Int) else n)

/-- The names of infinity and NaN in numerals, in lower case. -/
def specialNumeral? (negative : Bool) (cs : List Char) : Option Double :=
  let name := String.ofList (cs.map Char.toLower)
  if name = "inf" ∨ name = "infinity" then some (.infinity negative)
  else if name = "nan" then some .nan
  else none

/-- Reads the exponent of a decimal number, if the text is one. -/
def readExponent? : List Char → Option Int
  | [] => some 0
  | c :: rest =>
      if c = 'e' || c = 'E' then
        let (negative, ds) := splitSign rest
        if allDigits ds then
          let n := Nat.ofDigitChars 10 ds 0
          some (if negative then -(n : Int) else n)
        else
          none
      else
        none

/-- Reads an unsigned decimal number in ASCII: digits, a point with
digits before or after it, an exponent. -/
def readDecimal? (cs : List Char) : Option Decimal :=
  let whole := cs.takeWhile Char.isDigit
  let afterWhole := cs.dropWhile Char.isDigit
  let (fraction, afterFraction) :=
    match afterWhole with
    | '.' :: rest => (rest.takeWhile Char.isDigit, rest.dropWhile Char.isDigit)
    | rest => ([], rest)
  if whole.isEmpty && fraction.isEmpty then
    none
  else
    (readExponent? afterFraction).map fun e =>
      ⟨Nat.ofDigitChars 10 (whole ++ fraction) 0, e - fraction.length⟩

/-- Reads a decimal number as the nearest double. -/
def readDouble? (cs : List Char) : Option Double :=
  match dropUnderscores (asciiNumeral cs) with
  | none => none
  | some ds =>
      let (negative, body) := splitSign ds
      match readDecimal? body with
      | some d => some (.ofDecimal negative d.digits d.exponent)
      | none => specialNumeral? negative body

end DocStore.Text
