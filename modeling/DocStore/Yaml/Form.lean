import DocStore.Text.Numeral
import DocStore.Yaml.Timestamp

/-!
# Forms of plain scalars

A scalar without quotes and without a tag of its own means null, a truth
value, a number, a timestamp or a text, by its form alone
(`Tag.ofPlain`). Integers may be binary, octal (a zero in front),
hexadecimal or sexagesimal (parts of up to two digits with colons
between); a float has a point, and its exponent a sign. Underscores in
numbers do not count.
-/

namespace DocStore.Yaml

/-- What a node is meant to be. -/
inductive Tag where
  | null
  | boolean
  | integer
  | float
  | timestamp
  | text
  | merge
  | default
  | sequence
  | mapping
  | foreign
deriving DecidableEq

/-! ## Words -/

def trueWords : List String :=
  ["yes", "Yes", "YES", "true", "True", "TRUE", "on", "On", "ON"]

def falseWords : List String :=
  ["no", "No", "NO", "false", "False", "FALSE", "off", "Off", "OFF"]

def nullWords : List String :=
  ["", "~", "null", "Null", "NULL"]

/-! ## Numbers -/

/-- A digit of a base, or an underscore. -/
def isDigitOf (base : Nat) (c : Char) : Bool :=
  c = '_' || (c.isDigit && c.toNat - '0'.toNat < base) ||
    (base = 16 && 'a' ≤ c.toLower && c.toLower ≤ 'f')

/-- Digits of a base and underscores, of which there is at least one. -/
def areDigits (base : Nat) (cs : List Char) : Bool :=
  !cs.isEmpty && cs.all (isDigitOf base)

/-- Decimal digits and underscores, with a digit in front. -/
def startsWithDigit (cs : List Char) : Bool :=
  cs.head?.any Char.isDigit && areDigits 10 cs

/-- Sexagesimal parts: each a colon and one or two digits below
sixty. -/
def areSexagesimal : List Char → Bool
  | [] => true
  | ':' :: d :: rest =>
      d.isDigit &&
        match rest with
        | e :: rest =>
            if e.isDigit then d.toNat < '6'.toNat && areSexagesimal rest
            else areSexagesimal (e :: rest)
        | [] => true
  | _ => false

/-- A whole part and at least one sexagesimal part. -/
def isSexagesimal (cs : List Char) : Bool :=
  let parts := cs.dropWhile (· ≠ ':')
  startsWithDigit (cs.takeWhile (· ≠ ':')) && !parts.isEmpty && areSexagesimal parts

/-- The form of an unsigned integer. -/
def isNatural (cs : List Char) : Bool :=
  match cs with
  | ['0'] => true
  | '0' :: 'b' :: ds => areDigits 2 ds
  | '0' :: 'x' :: ds => areDigits 16 ds
  | '0' :: ds => areDigits 8 ds
  | _ => startsWithDigit cs || isSexagesimal cs

def isInteger (cs : List Char) : Bool :=
  isNatural (Text.splitSign cs).2

/-- The exponent of a float: nothing, or `e`, a sign and digits. -/
def isExponent : List Char → Bool
  | [] => true
  | e :: s :: ds => (e = 'e' || e = 'E') && (s = '+' || s = '-') && Text.allDigits ds
  | _ => false

/-- The form of an unsigned float with a point. -/
def isPointed (cs : List Char) : Bool :=
  let whole := cs.takeWhile (· ≠ '.')
  match cs.dropWhile (· ≠ '.') with
  | [] => false
  | _ :: rest =>
      let fraction := rest.takeWhile (isDigitOf 10)
      let exponent := rest.dropWhile (isDigitOf 10)
      (isExponent exponent &&
          (startsWithDigit whole || (whole.isEmpty && startsWithDigit fraction))) ||
        (isSexagesimal whole && exponent.isEmpty)

def infinityWords : List String := [".inf", ".Inf", ".INF"]

def nanWords : List String := [".nan", ".NaN", ".NAN"]

/-- The form of a float; a sign stands before a digit or a name, not
before a point. -/
def isFloat (cs : List Char) : Bool :=
  let body := (Text.splitSign cs).2
  infinityWords.contains (String.ofList body) || nanWords.contains (String.ofList cs) ||
    (isPointed body && (body = cs || body.head? ≠ some '.'))

/-! ## Tags -/

/-- What a plain scalar means by its form. -/
def Tag.ofPlain (cs : List Char) : Tag :=
  let word := String.ofList cs
  if trueWords.contains word || falseWords.contains word then .boolean
  else if isFloat cs then .float
  else if isInteger cs then .integer
  else if cs = ['<', '<'] then .merge
  else if nullWords.contains word then .null
  else if Timestamp.isPlain cs then .timestamp
  else if cs = ['='] then .default
  else .text

/-- What the address of a tag means. -/
def Tag.ofAddress (s : String) : Tag :=
  match s.dropPrefix? "tag:yaml.org,2002:" with
  | none => .foreign
  | some name =>
      match name.toString with
      | "null" => .null
      | "bool" => .boolean
      | "int" => .integer
      | "float" => .float
      | "timestamp" => .timestamp
      | "str" => .text
      | "merge" => .merge
      | "value" => .default
      | "seq" => .sequence
      | "map" => .mapping
      | _ => .foreign

end DocStore.Yaml
