import DocStore.Json.Basic
import DocStore.Text.Numeral
import DocStore.Text.Quoted

/-!
# Writing JSON

A JSON text is fixed by a `Layout`: what stands after a comma and after
a colon, and whether characters beyond ASCII are escaped as UTF-16
units. Control characters, quotes and backslashes are always escaped.
`writeIndented` puts every element and field on a line of its own. An
integer of too many digits has a text, but is not shown (`isShowable`).

Texts are sequences of Unicode scalar values, so the units of an escape
are those of a character: no surrogate stands on its own.
-/

namespace DocStore

/-- The spacing and the escapes of a JSON text. -/
structure Layout where
  comma : List Char
  colon : List Char
  asciiOnly : Bool

namespace Layout

/-- No blanks, characters beyond ASCII as they are. -/
def compact : Layout := ⟨[','], [':'], false⟩

/-- No blanks, ASCII only. -/
def compactAscii : Layout := ⟨[','], [':'], true⟩

/-- A blank after commas and colons, ASCII only. -/
def spacedAscii : Layout := ⟨[',', ' '], [':', ' '], true⟩

/-- A blank after commas and colons, characters beyond ASCII as they
are. -/
def spaced : Layout := ⟨[',', ' '], [':', ' '], false⟩

end Layout

namespace Json

/-- The names of the doubles that are no JSON numbers. -/
def specialNames : SpecialNames := ⟨"NaN", "Infinity"⟩

/-- An escape of one UTF-16 unit. -/
def unitEscape (unit : Nat) : List Char :=
  '\\' :: 'u' :: Text.hexDigits 4 unit

/-- A character inside a JSON string. -/
def writeChar (asciiOnly : Bool) (c : Char) : List Char :=
  if c = '"' then ['\\', '"']
  else if c = '\\' then ['\\', '\\']
  else if c = '\n' then ['\\', 'n']
  else if c = '\r' then ['\\', 'r']
  else if c = '\t' then ['\\', 't']
  else if c = '\x08' then ['\\', 'b']
  else if c = '\x0c' then ['\\', 'f']
  else if c.toNat < 0x20 then unitEscape c.toNat
  else if !asciiOnly || c.toNat < 0x7F then [c]
  else if c.toNat < 0x10000 then unitEscape c.toNat
  else
    unitEscape (0xD800 + (c.toNat - 0x10000) / 0x400) ++
      unitEscape (0xDC00 + (c.toNat - 0x10000) % 0x400)

/-- A JSON string. -/
def writeString (asciiOnly : Bool) (s : String) : List Char :=
  '"' :: s.toList.flatMap (writeChar asciiOnly) ++ ['"']

mutual

/-- The JSON text of a value. -/
def writeChars (l : Layout) : Json → List Char
  | null => "null".toList
  | bool true => "true".toList
  | bool false => "false".toList
  | int n => intDigits n
  | float x => (x.render specialNames).toList
  | str s => writeString l.asciiOnly s
  | arr [] => ['[', ']']
  | arr (v :: vs) => '[' :: writeChars l v ++ writeElements l vs ++ [']']
  | obj [] => ['\x7b', '\x7d']
  | obj ((k, v) :: fs) =>
      '\x7b' :: writeString l.asciiOnly k ++ l.colon ++ writeChars l v ++ writeFields l fs ++
        ['\x7d']

/-- The further elements of an array, each after a comma. -/
def writeElements (l : Layout) : List Json → List Char
  | [] => []
  | v :: vs => l.comma ++ writeChars l v ++ writeElements l vs

/-- The further fields of an object, each after a comma. -/
def writeFields (l : Layout) : List (String × Json) → List Char
  | [] => []
  | (k, v) :: fs =>
      l.comma ++ writeString l.asciiOnly k ++ l.colon ++ writeChars l v ++ writeFields l fs

end

/-- The JSON text of a value. -/
def write (l : Layout) (v : Json) : String :=
  String.ofList (v.writeChars l)

mutual

/-- The value can be shown: no integer in it has too many digits. -/
def isShowable : Json → Bool
  | int n => (Nat.toDigits 10 n.natAbs).length ≤ Text.maxIntDigits
  | arr vs => areShowable vs
  | obj fs => fieldsShowable fs
  | null | bool _ | float _ | str _ => true

def areShowable : List Json → Bool
  | [] => true
  | v :: vs => isShowable v && areShowable vs

def fieldsShowable : List (String × Json) → Bool
  | [] => true
  | (_, v) :: fs => isShowable v && fieldsShowable fs

end

/-- A line break and the indentation of a level, two blanks each. -/
def newline (level : Nat) : List Char :=
  '\n' :: List.replicate (2 * level) ' '

mutual

/-- The JSON text of a value in ASCII, one element or field a line. -/
def indentedChars (level : Nat) : Json → List Char
  | arr (v :: vs) =>
      '[' :: newline (level + 1) ++ indentedChars (level + 1) v ++
        indentedElements (level + 1) vs ++ newline level ++ [']']
  | obj ((k, v) :: fs) =>
      '\x7b' :: newline (level + 1) ++ writeString true k ++ [':', ' '] ++
        indentedChars (level + 1) v ++ indentedFields (level + 1) fs ++ newline level ++ ['\x7d']
  | v => v.writeChars .spacedAscii

def indentedElements (level : Nat) : List Json → List Char
  | [] => []
  | v :: vs => ',' :: newline level ++ indentedChars level v ++ indentedElements level vs

def indentedFields (level : Nat) : List (String × Json) → List Char
  | [] => []
  | (k, v) :: fs =>
      ',' :: newline level ++ writeString true k ++ [':', ' '] ++ indentedChars level v ++
        indentedFields level fs

end

/-- The JSON text of a value in ASCII, one element or field a line. -/
def writeIndented (v : Json) : String :=
  String.ofList (v.indentedChars 0)

/-- The text of a value in string functions: a string is its own text,
anything else its compact JSON text. -/
def text : Json → String
  | str s => s
  | v => v.write .compact

end Json

/-- The compact JSON text of a value, or the word for undefined. -/
def Value.write : Value → String
  | none => "undefined"
  | some v => v.write .compact

end DocStore
