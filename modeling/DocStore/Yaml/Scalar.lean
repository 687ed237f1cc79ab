import DocStore.Text.Case
import DocStore.Text.Split
import DocStore.Validation.Given
import DocStore.Yaml.Cursor
import DocStore.Yaml.Form

/-!
# Values of scalars

What a scalar with a tag is worth (`scalarValue`). A form promises a
value, but may not have one: a number may have no digits, or too many,
and a date may lie outside the calendar.
-/

namespace DocStore.Yaml

open Validation

/-! ## Integers -/

/-- The integer that digits of a base show. -/
def digitsValue (base : Nat) (cs : List Char) : Reading Int :=
  let digits? := cs.mapM fun c => (hexDigit? c).filter (· < base)
  match digits? with
  | some (d :: ds) => .ok ((d :: ds).foldl (fun n d => n * base + d) 0 : Nat)
  | _ => .error (.noDigits base (String.ofList cs))

/-- An integer in decimal digits. -/
def decimalValue (cs : List Char) : Reading Int :=
  (Text.integer cs).mapError .numeral

/-- An unsigned integer. -/
def naturalValue (cs : List Char) : Reading Int :=
  match cs with
  | [] => .error .emptyNumber
  | ['0'] => .ok 0
  | '0' :: 'b' :: ds => digitsValue 2 ds
  | '0' :: 'x' :: ds => digitsValue 16 ds
  | '0' :: _ => digitsValue 8 cs
  | _ => do
      let parts ← (Text.splitAtChar ':' cs).mapM decimalValue
      return parts.foldl (fun n part => n * 60 + part) 0

def integerValue (cs : List Char) : Reading Int := do
  let (negative, body) := Text.splitSign (cs.filter (· ≠ '_'))
  let n ← naturalValue body
  return if negative then -n else n

/-! ## Floats -/

/-- A float in decimal digits. -/
def doubleValue (cs : List Char) : Reading Double :=
  (Text.readDouble? cs).elim
    (.error (.numeral (.malformedNumber (String.ofList cs)))) .ok

/-- The value of sexagesimal parts, the last one first, each rounded on
its own; `weight` is what the first of them counts. -/
def sexagesimalValue (weight : Nat) (sum : Double) : List Double → Reading Double
  | [] => .ok sum
  | part :: rest =>
      match widen weight with
      | .error e => .error (.overflow e)
      | .ok w => sexagesimalValue (weight * 60) (sum.plus (part.times w)) rest

def floatValue (cs : List Char) : Reading Double := do
  let digits := (cs.filter (· ≠ '_')).map Char.toLower
  if digits.isEmpty then
    throw .emptyNumber
  let (negative, body) := Text.splitSign digits
  if body = ".nan".toList then
    return .nan
  let x ←
    if body = ".inf".toList then pure (.infinity false)
    else if body.contains ':' then do
      let parts ← (Text.splitAtChar ':' body).mapM doubleValue
      sexagesimalValue 1 (.zero false) parts.reverse
    else
      doubleValue body
  return if negative then x.negate else x

/-! ## Scalars -/

def booleanValue (cs : List Char) : Reading Bool :=
  let word := String.ofList (Text.lower cs)
  if trueWords.contains word then .ok true
  else if falseWords.contains word then .ok false
  else .error (.unknownWord word)

def timestampValue (cs : List Char) : Reading Given :=
  match Timestamp.read? cs with
  | none => .error .noTimestamp
  | some t => t.fault?.elim (.ok (.other t.shown)) fun e => .error (.timestamp e)

/-- What a scalar is worth. -/
def scalarValue (tag : Tag) (cs : List Char) : Reading Given :=
  match tag with
  | .null => .ok .null
  | .boolean => (booleanValue cs).map .bool
  | .integer => (integerValue cs).map .int
  | .float => (floatValue cs).map .float
  | .timestamp => timestampValue cs
  | .text => .ok (.text (String.ofList cs))
  | .merge | .default | .sequence | .mapping | .foreign => refuse

end DocStore.Yaml
