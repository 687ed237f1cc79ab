import DocStore.Json.Display
import DocStore.Validation.Given

/-!
# Issues

What is wrong with a given value: the way to it, the fault, and the
value itself. An input is checked as a whole, so that all its issues are
reported at once, in the order of its fields.
-/

namespace DocStore.Validation

/-- What can be wrong with a value. -/
inductive Fault where
  | missing
  | booleanWanted
  | booleanUnreadable
  | integerWanted
  | integerUnreadable
  | integerTooLong
  | integerFractional
  | numberInfinite
  | below (bound : Int)
  | textWanted
  | textEmpty
  | notOneOf (choices : List String)
  | recordWanted (name : String)
  | objectWanted
  | listWanted
  | refused (reason : String)
deriving DecidableEq

namespace Fault

/-- The word for a fault. -/
def label : Fault → String
  | missing => "missing"
  | booleanWanted => "bool_type"
  | booleanUnreadable => "bool_parsing"
  | integerWanted => "int_type"
  | integerUnreadable => "int_parsing"
  | integerTooLong => "int_parsing_size"
  | integerFractional => "int_from_float"
  | numberInfinite => "finite_number"
  | below _ => "greater_than_equal"
  | textWanted => "string_type"
  | textEmpty => "string_too_short"
  | notOneOf _ => "enum"
  | recordWanted _ => "model_type"
  | objectWanted => "dict_type"
  | listWanted => "list_type"
  | refused _ => "value_error"

/-- Alternatives in single quotes, the last one after "or". -/
def alternatives : List String → String
  | [] => ""
  | [s] => "'" ++ s ++ "'"
  | [s, t] => "'" ++ s ++ "' or '" ++ t ++ "'"
  | s :: rest => "'" ++ s ++ "', " ++ alternatives rest

def message : Fault → String
  | missing => "Field required"
  | booleanWanted => "Input should be a valid boolean"
  | booleanUnreadable => "Input should be a valid boolean, unable to interpret input"
  | integerWanted => "Input should be a valid integer"
  | integerUnreadable => "Input should be a valid integer, unable to parse string as an integer"
  | integerTooLong => "Unable to parse input string as an integer, exceeded maximum size"
  | integerFractional => "Input should be a valid integer, got a number with a fractional part"
  | numberInfinite => "Input should be a finite number"
  | below bound => "Input should be greater than or equal to " ++ intText bound
  | textWanted => "Input should be a valid string"
  | textEmpty => "String should have at least 1 character"
  | notOneOf choices => "Input should be " ++ alternatives choices
  | recordWanted name => "Input should be a valid dictionary or instance of " ++ name
  | objectWanted => "Input should be a valid dictionary"
  | listWanted => "Input should be a valid list"
  | refused reason => "Value error, " ++ reason

end Fault

/-- A fault of the value at the end of a path. -/
structure Issue where
  path : List String
  fault : Fault
  input : Given

namespace Issue

/-- The path with points between its steps. -/
def location (i : Issue) : String :=
  ".".intercalate i.path

/-- A text of more than 50 bytes without its middle. -/
def shortened (s : String) : String :=
  if s.utf8ByteSize ≤ 50 then s
  else
    let head := s.toList.foldl
      (fun (acc : List Char × Nat) c =>
        if acc.2 + c.utf8Size ≤ 25 then (acc.1 ++ [c], acc.2 + c.utf8Size) else (acc.1, 26)) ([], 0)
    let tail := s.toList.reverse.foldl
      (fun (acc : List Char × Nat) c =>
        if acc.2 + c.utf8Size ≤ 24 then (c :: acc.1, acc.2 + c.utf8Size) else (acc.1, 25)) ([], 0)
    String.ofList head.1 ++ "..." ++ String.ofList tail.1

/-- The issue in full; `help` says where to read about a fault. -/
def text (help : Fault → String) (i : Issue) : String :=
  i.location ++ "\n  " ++ i.fault.message ++ " [type=" ++ i.fault.label ++ ", input_value=" ++
    shortened i.input.toJson.display ++ ", input_type=" ++ i.input.toJson.typeName ++ "]\n    " ++
    help i.fault

end Issue

/-- All issues of an input, under a heading that counts them. -/
def report (help : Fault → String) (subject : String) (issues : List Issue) : String :=
  natText issues.length ++ " validation error" ++ (if issues.length = 1 then "" else "s") ++
    " for " ++ subject ++ String.join (issues.map fun i => "\n" ++ i.text help)

end DocStore.Validation
