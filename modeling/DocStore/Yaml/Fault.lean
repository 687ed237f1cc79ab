import DocStore.Json.Order
import DocStore.Text.NumeralError
import DocStore.Yaml.Timestamp

/-!
# What can be wrong with a YAML text

A text may be no YAML at all, or hold a scalar whose form promises a
value that it does not have: a date that no calendar has, a number
without digits, a truth value that is none of the words, an escape of a
character that does not exist.
-/

namespace DocStore.Yaml

/-- Why a text cannot be read. -/
inductive Fault where
  | malformed
  | unknownWord (word : String)
  | emptyNumber
  | noTimestamp
  | noCharacter
  | noMachineWord
  | noDigits (base : Nat) (text : String)
  | numeral (e : Text.NumeralError)
  | overflow (e : Overflow)
  | timestamp (e : Timestamp.Fault)
deriving DecidableEq

/-- The words for a fault; a text that is no YAML has none, nor has a
text that is no timestamp. -/
def Fault.message : Fault → String
  | malformed | noTimestamp => ""
  | unknownWord word => word.inQuotes
  | emptyNumber => "string index out of range"
  | noCharacter => "chr() arg not in range(0x110000)"
  | noMachineWord => "Python int too large to convert to C int"
  | noDigits base text => Text.noIntegerMessage base text
  | numeral e => e.message
  | overflow e => e.message
  | timestamp e => e.message

/-- What reads a part of a text. -/
abbrev Reading := Except Fault

def refuse {α : Type} : Reading α := .error .malformed

end DocStore.Yaml
