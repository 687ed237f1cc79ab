import DocStore.Codec.Unicode
import DocStore.Json.Basic
import DocStore.Text.Numeral

/-!
# Reading JSON

A reader for JSON texts, with the names of NaN and the infinities beside
the numbers. A number without point and exponent is an integer; the last
of several fields of one key counts, in the place of the first. Each
function reads a piece at the head of a text and returns what is left;
`parse` reads a whole text. The first error in the text counts.
-/

namespace DocStore.Json

/-- Why a text is no JSON that can be read. -/
inductive ReadError where
  | malformed
  | tooManyDigits (count : Nat)
deriving DecidableEq

/-- What reads a piece of a text. -/
abbrev Reading := Except ReadError

def malformed {α : Type} : Reading α := .error .malformed

/-- Drops the blanks that may stand between the tokens of a JSON
text. -/
def skipBlanks (cs : List Char) : List Char :=
  cs.dropWhile fun c => c = ' ' || c = '\t' || c = '\n' || c = '\r'

/-! ## Strings -/

/-- The value of a hexadecimal digit. -/
def hexValue? (c : Char) : Option Nat :=
  if c.isDigit then some (c.toNat - '0'.toNat)
  else if 'a' ≤ c ∧ c ≤ 'f' then some (c.toNat - 'a'.toNat + 10)
  else if 'A' ≤ c ∧ c ≤ 'F' then some (c.toNat - 'A'.toNat + 10)
  else none

/-- The value of four hexadecimal digits. -/
def hexUnit? (a b c d : Char) : Option Nat := do
  let a ← hexValue? a
  let b ← hexValue? b
  let c ← hexValue? c
  let d ← hexValue? d
  return ((a * 16 + b) * 16 + c) * 16 + d

/-- The code point that a letter stands for after a backslash. -/
def escapeValue? : Char → Option Nat
  | '"' => some 0x22
  | '\\' => some 0x5C
  | '/' => some 0x2F
  | 'b' => some 0x08
  | 'f' => some 0x0C
  | 'n' => some 0x0A
  | 'r' => some 0x0D
  | 't' => some 0x09
  | _ => none

/-- Reads up to the closing quote. The result holds code points and,
where the text escapes them, UTF-16 surrogates. -/
def readUnits? : List Char → Option (List Nat × List Char)
  | [] => none
  | '"' :: rest => some ([], rest)
  | '\\' :: 'u' :: a :: b :: c :: d :: rest => do
      let unit ← hexUnit? a b c d
      let (units, rest) ← readUnits? rest
      return (unit :: units, rest)
  | '\\' :: e :: rest => do
      let unit ← escapeValue? e
      let (units, rest) ← readUnits? rest
      return (unit :: units, rest)
  | c :: rest =>
      if c.toNat < 0x20 || c = '\\' then
        none
      else do
        let (units, rest) ← readUnits? rest
        return (c.toNat :: units, rest)

/-- Reads a string behind its opening quote. -/
def readString? (cs : List Char) : Option (String × List Char) :=
  (readUnits? cs).map fun (units, rest) => (String.ofList (Codec.joinSurrogates units), rest)

/-! ## Numbers -/

/-- Splits off the digits in front. -/
def splitDigits (cs : List Char) : List Char × List Char :=
  (cs.takeWhile Char.isDigit, cs.dropWhile Char.isDigit)

/-- Splits off a point and the digits behind it, of which there is at
least one. -/
def splitFraction (cs : List Char) : List Char × List Char :=
  match cs with
  | '.' :: rest =>
      let (ds, after) := splitDigits rest
      if ds.isEmpty then ([], cs) else (ds, after)
  | _ => ([], cs)

/-- Splits off an exponent, which has at least one digit. -/
def splitExponent (cs : List Char) : Option Int × List Char :=
  match cs with
  | c :: rest =>
      if c = 'e' || c = 'E' then
        let (negative, rest) := Text.splitSign rest
        let (ds, after) := splitDigits rest
        if ds.isEmpty then
          (none, cs)
        else
          let n := Nat.ofDigitChars 10 ds 0
          (some (if negative then -(n : Int) else n), after)
      else
        (none, cs)
  | [] => (none, cs)

/-- Splits off the digits before the point: a zero alone or digits that
start with no zero. -/
def splitWhole : List Char → List Char × List Char
  | '0' :: rest => (['0'], rest)
  | cs => splitDigits cs

/-- Reads a number behind its sign. -/
def readNumber (negative : Bool) (cs : List Char) : Reading (Json × List Char) :=
  let (whole, afterWhole) := splitWhole cs
  if whole.isEmpty then
    malformed
  else
    let (fraction, afterFraction) := splitFraction afterWhole
    let (exponent, rest) := splitExponent afterFraction
    if fraction.isEmpty && exponent.isNone then
      if Text.maxIntDigits < whole.length then
        .error (.tooManyDigits whole.length)
      else
        let n := Nat.ofDigitChars 10 whole 0
        .ok (int (if negative then -(n : Int) else n), rest)
    else
      let digits := Nat.ofDigitChars 10 (whole ++ fraction) 0
      .ok (float (.ofDecimal negative digits (exponent.getD 0 - fraction.length)), rest)

/-! ## Values -/

/-- Drops a word in front of a text. -/
def dropWord? : List Char → List Char → Option (List Char)
  | [], cs => some cs
  | w :: ws, c :: cs => if w = c then dropWord? ws cs else none
  | _ :: _, [] => none

/-- Reads a constant: a word in front of the text. -/
def readConstant (word : String) (v : Json) (cs : List Char) : Reading (Json × List Char) :=
  (dropWord? word.toList cs).elim malformed fun rest => .ok (v, rest)

/-- Reads a string behind its opening quote. -/
def readString (cs : List Char) : Reading (String × List Char) :=
  (readString? cs).elim malformed .ok

mutual

/-- Reads a value; `fuel` bounds the nesting and the number of
elements. -/
def readValue : Nat → List Char → Reading (Json × List Char)
  | 0, _ => malformed
  | fuel + 1, cs =>
      match cs with
      | [] => malformed
      | '"' :: rest => do
          let (s, rest) ← readString rest
          return (str s, rest)
      | '[' :: rest =>
          match skipBlanks rest with
          | ']' :: rest => .ok (arr [], rest)
          | rest => do
              let (vs, rest) ← readElements fuel rest
              return (arr vs, rest)
      | '\x7b' :: rest =>
          match skipBlanks rest with
          | '\x7d' :: rest => .ok (obj [], rest)
          | rest => do
              let (fs, rest) ← readFields fuel rest
              return (obj (Table.ofEntries fs), rest)
      | 'n' :: _ => readConstant "null" null cs
      | 't' :: _ => readConstant "true" (bool true) cs
      | 'f' :: _ => readConstant "false" (bool false) cs
      | 'N' :: _ => readConstant "NaN" (float .nan) cs
      | 'I' :: _ => readConstant "Infinity" (float (.infinity false)) cs
      | '-' :: 'I' :: _ => readConstant "-Infinity" (float (.infinity true)) cs
      | '-' :: rest => readNumber true rest
      | _ => readNumber false cs

/-- Reads the elements of an array up to its closing bracket; there is
at least one. -/
def readElements : Nat → List Char → Reading (List Json × List Char)
  | 0, _ => malformed
  | fuel + 1, cs => do
      let (v, rest) ← readValue fuel cs
      match skipBlanks rest with
      | ']' :: rest => return ([v], rest)
      | ',' :: rest =>
          let (vs, rest) ← readElements fuel (skipBlanks rest)
          return (v :: vs, rest)
      | _ => malformed

/-- Reads the fields of an object up to its closing brace; there is at
least one. -/
def readFields : Nat → List Char → Reading (List (String × Json) × List Char)
  | 0, _ => malformed
  | fuel + 1, cs => do
      match cs with
      | '"' :: rest =>
          let (k, rest) ← readString rest
          match skipBlanks rest with
          | ':' :: rest =>
              let (v, rest) ← readValue fuel (skipBlanks rest)
              match skipBlanks rest with
              | '\x7d' :: rest => return ([(k, v)], rest)
              | ',' :: rest =>
                  let (fs, rest) ← readFields fuel (skipBlanks rest)
                  return ((k, v) :: fs, rest)
              | _ => malformed
          | _ => malformed
      | _ => malformed

end

/-- Reads a JSON text, blanks around the value included. -/
def parseChars (cs : List Char) : Reading Json := do
  let (v, rest) ← readValue (cs.length + 1) (skipBlanks cs)
  if (skipBlanks rest).isEmpty then return v else .error .malformed

/-- The value that a JSON text shows, if it can be read. -/
def parseChars? (cs : List Char) : Option Json :=
  (parseChars cs).toOption

/-- Reads a JSON text. -/
def parse (s : String) : Reading Json :=
  parseChars s.toList

/-- The value that a JSON text shows, if it can be read. -/
def parse? (s : String) : Option Json :=
  parseChars? s.toList

end DocStore.Json
