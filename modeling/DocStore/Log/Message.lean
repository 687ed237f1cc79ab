import DocStore.Json.Display
import DocStore.Json.Order
import DocStore.Json.Writer
import DocStore.Log.Redaction
import DocStore.Number.Fixed
import DocStore.Text.NumeralError

/-!
# Messages

A message is a text, or another value that is shown. With arguments it
is a template: each conversion in it stands for the next argument, and
all arguments have to be used. A template can ask for the text of an
argument (`%s`), for the argument as it is displayed (`%r`), for an
integer (`%d`) and for a number with fixed places (`%f`), with a
precision between the `%` and the letter, as in `%.3f`; `%%` is a `%`.
Widths, flags, names of arguments and other letters are none of the
conversions that are known here.

Redaction looks at the text or the template alone; values that are no
texts, and arguments, pass as they are.
-/

namespace DocStore.Log

/-- A message: what it is made of, and the arguments of a template. -/
structure Message where
  content : Json
  arguments : List Json

/-- Why a message cannot be shown. -/
inductive MessageFault where
  | incomplete
  | tooFewArguments
  | tooManyArguments
  | unknownConversion (letter : Char) (index : Nat)
  | noInteger (type : String)
  | noNumber (type : String)
  | numeral (e : Text.NumeralError)
  | overflow (e : Overflow)
  | unshowable
deriving DecidableEq

def MessageFault.message : MessageFault → String
  | incomplete => "incomplete format"
  | tooFewArguments => "not enough arguments for format string"
  | tooManyArguments => "not all arguments converted during string formatting"
  | unknownConversion letter index =>
      let shown := if 31 < letter.toNat && letter.toNat < 127 then letter else '?'
      "unsupported format character '" ++ String.ofList [shown] ++ "' (0x" ++
        String.ofList (Nat.toDigits 16 letter.toNat) ++ ") at index " ++ natText index
  | noInteger type => "%d format: a real number is required, not " ++ type
  | noNumber type => "must be real number, not " ++ type
  | numeral e => e.message
  | overflow e => e.message
  | unshowable => Text.unshowableMessage

namespace Message

/-- A text without arguments. -/
def text (s : String) : Message :=
  ⟨.str s, []⟩

/-- The message without the secrets of its text or template. -/
def redacted (m : Message) : Message :=
  match m.content with
  | .str s => { m with content := .str (redact s) }
  | _ => m

/-! ## Conversions -/

/-- The integer that an argument is or is cut down to. -/
def integerOf : Json → Except MessageFault Int
  | .int n => .ok n
  | .bool b => .ok (if b then 1 else 0)
  | .float x =>
      match x.truncate? with
      | some n => .ok n
      | none => .error (.numeral (if x.isNaN then .notANumber else .infinite))
  | v => .error (.noInteger v.typeName)

/-- The double that an argument is or is widened to. -/
def doubleOf : Json → Except MessageFault Double
  | .float x => .ok x
  | .int n => (widen n).mapError .overflow
  | .bool b => .ok (.ofNat (if b then 1 else 0))
  | v => .error (.noNumber v.typeName)

/-- A text cut to the precision, if there is one. -/
def cut (precision : Option Nat) (s : String) : List Char :=
  match precision with
  | some n => s.toList.take n
  | none => s.toList

/-- What stands in place of a conversion. The precision is the greatest
number of characters of a text, the least number of digits of an
integer, and the number of places of a number, six if it is not
given. -/
def convert (precision : Option Nat) (letter : Char) (index : Nat) (v : Json) :
    Except MessageFault (List Char) :=
  match letter with
  | 's' => if v.isShowable then .ok (cut precision v.plainDisplay) else .error .unshowable
  | 'r' => if v.isShowable then .ok (cut precision v.display) else .error .unshowable
  | 'd' => do
      let n ← integerOf v
      if (Json.int n).isShowable then
        let digits := padZeros (precision.getD 0) (Nat.toDigits 10 n.natAbs)
        return if n < 0 then '-' :: digits else digits
      else
        throw .unshowable
  | 'f' => do
      let x ← doubleOf v
      return (x.fixed Json.displayNames (precision.getD 6)).toList
  | _ => .error (.unknownConversion letter index)

/-- What stands in place of a conversion, and the arguments behind
it. -/
def next (precision : Option Nat) (letter : Char) (index : Nat) :
    List Json → Except MessageFault (List Char × List Json)
  | [] => .error .tooFewArguments
  | v :: rest => (convert precision letter index v).map fun shown => (shown, rest)

/-! ## Templates -/

/-- Where a template is read: outside of conversions, behind a `%`, or
in a precision, which has a value so far. -/
inductive Reading where
  | outside
  | conversion
  | precision (n : Nat)

/-- A single object that is not empty counts as arguments by name, of
which none need be used. -/
def areNamed : List Json → Bool
  | [.obj (_ :: _)] => true
  | _ => false

/-- Puts arguments into the rest of a template; `index` is where the
rest starts. -/
def fill (named : Bool) (index : Nat) :
    Reading → List Char → List Json → Except MessageFault (List Char)
  | .outside, [], arguments =>
      if named || arguments.isEmpty then .ok [] else .error .tooManyArguments
  | .outside, c :: cs, arguments =>
      if c = '%' then
        fill named (index + 1) .conversion cs arguments
      else
        (fill named (index + 1) .outside cs arguments).map (c :: ·)
  | .conversion, [], _ => .error .incomplete
  | .conversion, c :: cs, arguments =>
      if c = '%' then
        (fill named (index + 1) .outside cs arguments).map ('%' :: ·)
      else if c = '.' then
        fill named (index + 1) (.precision 0) cs arguments
      else do
        let (shown, arguments) ← next none c index arguments
        (fill named (index + 1) .outside cs arguments).map (shown ++ ·)
  | .precision _, [], _ => .error .incomplete
  | .precision n, c :: cs, arguments =>
      if c.isDigit then
        fill named (index + 1) (.precision (10 * n + (c.toNat - '0'.toNat))) cs arguments
      else do
        let (shown, arguments) ← next (some n) c index arguments
        (fill named (index + 1) .outside cs arguments).map (shown ++ ·)

/-- The message as it is read. -/
def render (m : Message) : Except MessageFault String :=
  if m.content.isShowable then
    let shown := m.content.plainDisplay
    if m.arguments.isEmpty then
      .ok shown
    else
      (fill (areNamed m.arguments) 0 .outside shown.toList m.arguments).map String.ofList
  else
    .error .unshowable

/-- A text without arguments is read as it is. -/
@[simp] theorem render_text (s : String) : (text s).render = .ok s := rfl

end Message

end DocStore.Log
