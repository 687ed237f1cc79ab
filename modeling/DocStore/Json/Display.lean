import DocStore.Json.Basic
import DocStore.Text.Quoted

/-!
# Values in messages

How a value stands in an error message or a log record: strings in
quotes, the constants with capitals, a blank after commas and colons.
-/

namespace DocStore

namespace Json

/-- The names of the doubles that are no numbers, in messages. -/
def displayNames : SpecialNames := ⟨"nan", "inf"⟩

mutual

/-- A value in a message. -/
def display : Json → String
  | null => "None"
  | bool true => "True"
  | bool false => "False"
  | int n => intText n
  | float x => x.render displayNames
  | str s => s.inQuotes
  | arr [] => "[]"
  | arr (v :: vs) => "[" ++ display v ++ displayElements vs ++ "]"
  | obj [] => "\x7b\x7d"
  | obj ((k, v) :: fs) => "\x7b" ++ k.inQuotes ++ ": " ++ display v ++ displayFields fs ++ "\x7d"

/-- The further elements of an array, each after a comma. -/
def displayElements : List Json → String
  | [] => ""
  | v :: vs => ", " ++ display v ++ displayElements vs

/-- The further fields of an object, each after a comma. -/
def displayFields : List (String × Json) → String
  | [] => ""
  | (k, v) :: fs => ", " ++ k.inQuotes ++ ": " ++ display v ++ displayFields fs

end

end Json

/-- The word for the type of a value, in messages. -/
def Json.typeName : Json → String
  | null => "NoneType"
  | bool _ => "bool"
  | int _ => "int"
  | float _ => "float"
  | str _ => "str"
  | arr _ => "list"
  | obj _ => "dict"

/-- A value that stands in a message without quotes of its own. -/
def Json.plainDisplay : Json → String
  | str s => s
  | v => v.display

/-- A value in a message, undefined included. -/
def Value.display : Value → String
  | none => "Undefined"
  | some v => v.display

end DocStore
