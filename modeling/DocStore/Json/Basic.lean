import DocStore.Number.Notation
import DocStore.Table

/-!
# JSON values

A JSON value keeps what documents and answers show: integers of any size
apart from doubles, and the fields of an object in the order of their
arrival. A `Value` is a JSON value or undefined, which is what a missing
property has. The kinds of values are ranked for sorting.
-/

namespace DocStore

/-- A JSON value. -/
inductive Json where
  | null
  | bool (b : Bool)
  | int (n : Int)
  | float (x : Double)
  | str (s : String)
  | arr (elements : List Json)
  | obj (fields : List (String × Json))
deriving Inhabited

/-- The fields of an object. -/
abbrev Fields := Table Json

/-- A JSON value, or none where a property is missing. -/
abbrev Value := Option Json

/-! ## Kinds -/

/-- The kinds of values. -/
inductive Kind where
  | undefined
  | null
  | boolean
  | number
  | string
  | array
  | object
deriving DecidableEq

namespace Kind

/-- The place of a kind when values of different kinds are sorted. -/
def rank : Kind → Nat
  | undefined => 0
  | null => 1
  | boolean => 2
  | number => 3
  | string => 4
  | array => 5
  | object => 6

def name : Kind → String
  | undefined => "undefined"
  | null => "null"
  | boolean => "boolean"
  | number => "number"
  | string => "string"
  | array => "array"
  | object => "object"

/-- Values of the kind can be told smaller and greater. -/
def isOrdinal : Kind → Bool
  | number | string => true
  | _ => false

end Kind

namespace Json

def kind : Json → Kind
  | null => .null
  | bool _ => .boolean
  | int _ | float _ => .number
  | str _ => .string
  | arr _ => .array
  | obj _ => .object

/-- The value of a field, if the value is an object that has it. -/
def field? (v : Json) (key : String) : Option Json :=
  match v with
  | obj fields => Table.get? fields key
  | _ => none

/-- Null, false, zero or empty: given as a setting or an argument, it
counts as not given. -/
def isBlank : Json → Bool
  | null => true
  | bool b => !b
  | int n => n == 0
  | float x => x.isZero
  | str s => s.isEmpty
  | arr elements => elements.isEmpty
  | obj fields => fields.isEmpty

end Json

/-- The kind of a value, undefined included. -/
def Value.kind : Value → Kind
  | none => .undefined
  | some v => v.kind

end DocStore
