import DocStore.Text.Numeral
import DocStore.Text.Quoted

/-!
# Errors of numerals

Why a text gives no number, with the messages that show the text.
-/

namespace DocStore.Text

/-- Why a text gives no number. -/
inductive NumeralError where
  | malformedInteger (text : String)
  | tooManyDigits (count : Nat)
  | malformedNumber (text : String)
  | notANumber
  | infinite
deriving DecidableEq

/-- What is said of a text that shows no integer of a base; at most 200
characters of the text in its quotes are shown. -/
def noIntegerMessage (base : Nat) (text : String) : String :=
  "invalid literal for int() with base " ++ natText base ++ ": " ++
    String.ofList (text.inQuotes.toList.take 200)

def NumeralError.message : NumeralError → String
  | malformedInteger text => noIntegerMessage 10 text
  | tooManyDigits count =>
      "Exceeds the limit (" ++ natText maxIntDigits ++
        " digits) for integer string conversion: value has " ++ natText count ++
        " digits; use sys.set_int_max_str_digits() to increase the limit"
  | malformedNumber text => "could not convert string to float: " ++ text.inQuotes
  | notANumber => "cannot convert float NaN to integer"
  | infinite => "cannot convert float infinity to integer"

/-- What is said of an integer that has too many digits to be shown. -/
def unshowableMessage : String :=
  "Exceeds the limit (" ++ natText maxIntDigits ++
    " digits) for integer string conversion; use sys.set_int_max_str_digits() to increase the limit"

/-- The integer that a text shows. -/
def integer (cs : List Char) : Except NumeralError Int :=
  match readInt cs with
  | .ok n => .ok n
  | .error .malformed => .error (.malformedInteger (String.ofList cs))
  | .error (.tooManyDigits count) => .error (.tooManyDigits count)

end DocStore.Text
