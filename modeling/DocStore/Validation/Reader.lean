import DocStore.Validation.Checked
import DocStore.Validation.IntegerText

/-!
# Reading values

A reader turns a given value into what is wanted, and is lenient where
the meaning is clear: a boolean may be given as 0 or 1 or as a word, an
integer as a number without fraction or as text. Texts are never made
from other values.
-/

namespace DocStore.Validation

open Checked

/-- What turns a given value into the wanted one. -/
abbrev Reader (α : Type) := Given → Checked α

/-- A reader of single values. -/
def single {α : Type} (f : Given → Except Fault α) : Reader α :=
  fun v => .ofFault v (f v)

/-! ## Booleans -/

/-- The words for the truth values, in small letters. -/
def falseWords : List String := ["0", "f", "n", "no", "off", "false"]

def trueWords : List String := ["1", "t", "y", "yes", "on", "true"]

/-- The truth value of a word in any case of ASCII letters. -/
def wordTruth? (s : String) : Option Bool :=
  let word := String.ofList (s.toList.map Char.toLower)
  if falseWords.contains word then some false
  else if trueWords.contains word then some true
  else none

/-- A machine word holds the integers from minus this bound up to below
it. -/
def wordBound : Nat := Nat.pow 2 63

/-- The integers that fit into a machine word. -/
def fitsWord (n : Int) : Bool :=
  -(wordBound : Int) ≤ n && n < wordBound

/-- A number as a truth value; numbers that do not fit into a machine
word are no truth values at all. -/
def numberTruth (n : Int) : Except Fault Bool :=
  if n = 0 then .ok false
  else if n = 1 then .ok true
  else .error (if fitsWord n then .booleanUnreadable else .booleanWanted)

def boolean : Reader Bool :=
  single fun
    | .bool b => .ok b
    | .text s => (wordTruth? s).elim (.error .booleanUnreadable) .ok
    | .int n => numberTruth n
    | .float x =>
        (x.toInt?.filter fun n => n ≠ -(wordBound : Int)).elim (.error .booleanWanted) numberTruth
    | _ => .error .booleanWanted

/-! ## Integers -/

/-- An integer given as a double. -/
def doubleInteger (x : Double) : Except Fault Int :=
  match x.truncate?, x.toInt? with
  | none, _ => .error .numberInfinite
  | some _, none => .error .integerFractional
  | some _, some n =>
      if fitsWord n && n ≠ -(wordBound : Int) then .ok n else .error .integerTooLong

def integerValue : Given → Except Fault Int
  | .int n => .ok n
  | .bool b => .ok (if b then 1 else 0)
  | .text s => textInteger s
  | .float x => doubleInteger x
  | _ => .error .integerWanted

def integer : Reader Int :=
  single integerValue

/-- An integer that is not smaller than a bound. -/
def integerFrom (bound : Int) : Reader Int :=
  single fun v => do
    let n ← integerValue v
    if n < bound then .error (.below bound) else .ok n

/-! ## Texts and choices -/

def textValue : Given → Except Fault String
  | .text s => .ok s
  | _ => .error .textWanted

def text : Reader String :=
  single textValue

/-- A text that is not empty. -/
def nonemptyText : Reader String :=
  single fun v => do
    let s ← textValue v
    if s.isEmpty then .error .textEmpty else .ok s

/-- A text that passes a test, which gives a reason if it does not. -/
def textThat (refusal? : String → Option String) : Reader String :=
  single fun v => do
    let s ← textValue v
    match refusal? s with
    | some reason => .error (.refused reason)
    | none => .ok s

/-- One of the named values. -/
def choice {α : Type} (values : Table α) : Reader α :=
  single fun
    | .text s => (values.get? s).elim (.error (.notOneOf values.keys)) .ok
    | _ => .error (.notOneOf values.keys)

/-- A value, or nothing where null is given. -/
def nullable {α : Type} (read : Reader α) : Reader (Option α)
  | .null => .valid none
  | v => some <$> read v

/-- Any value as it is. -/
def anything : Reader Json :=
  fun v => .valid v.toJson

/-! ## Compound values -/

/-- The elements of a list. -/
def list {α : Type} (read : Reader α) : Reader (List α)
  | .list vs => .all (vs.mapIdx fun i v => (read v).under (natText i))
  | v => .faulty [⟨[], .listWanted, v⟩]

/-- A key, which has to be a text. -/
def textKey : Key → Checked String
  | .text s => .valid s
  | .other shown => .faulty [⟨[shown, "[key]"], .textWanted, .other shown⟩]

/-- The entries of a map, all read alike. -/
def table {α : Type} (read : Reader α) : Reader (Table α)
  | .map entries =>
      .all (entries.map fun (k, v) => Prod.mk <$> textKey k <*> (read v).under k.shown)
  | v => .faulty [⟨[], .objectWanted, v⟩]

/-- A map whose entries make up a record of the given name. -/
def record {α : Type} (name : String) (read : Entries → Checked α) : Reader α
  | .map entries => read entries
  | v => .faulty [⟨[], .recordWanted name, v⟩]

/-- An entry that may be missing. -/
def optionalField {α : Type} (entries : Entries) (name : String) (default : α)
    (read : Reader α) : Checked α :=
  match entries.get? (.text name) with
  | some v => (read v).under name
  | none => .valid default

/-- An entry that must be there. -/
def requiredField {α : Type} (entries : Entries) (name : String) (read : Reader α) : Checked α :=
  match entries.get? (.text name) with
  | some v => (read v).under name
  | none => .faulty [⟨[name], .missing, .map entries⟩]

/-- An entry under either of two names, the first of which goes before
the second. -/
def optionalFieldOf {α : Type} (entries : Entries) (name other : String) (default : α)
    (read : Reader α) : Checked α :=
  if entries.has (.text name) then optionalField entries name default read
  else optionalField entries other default read

end DocStore.Validation
