import DocStore.Json.Basic

/-!
# Query parameters

Values for the names in a query that start with `@`. They are given as
an object or as a list of objects with a `name` and a `value`; the `@`
may be left out. What counts as not given stands for no parameters.
-/

namespace DocStore

/-- Values by parameter name, each starting with `@`. -/
abbrev Parameters := Table Json

/-- Why parameters are refused. -/
inductive ParameterError where
  | badShape
  | nameNotText
deriving DecidableEq

def ParameterError.message : ParameterError → String
  | badShape => "Query parameters must be a mapping or a list of \x7b'name', 'value'\x7d objects"
  | nameNotText => ""

namespace Parameters

/-- The name with its `@`. -/
def canonicalName (name : String) : String :=
  if "@".toList.isPrefixOf name.toList then name else "@" ++ name

/-- The name and the value of a list entry. -/
def entry? (v : Json) : Option (Json × Json) := do
  let name ← v.field? "name"
  let value ← v.field? "value"
  return (name, value)

/-- The entries with their names as texts. -/
def named? : List (Json × Json) → Option (List (String × Json))
  | [] => some []
  | (.str name, value) :: rest => (named? rest).map ((canonicalName name, value) :: ·)
  | _ :: _ => none

/-- Brings parameters into the form of a table; of two values for one
name the last counts. -/
def normalize (given : Json) : Except ParameterError Parameters :=
  if given.isBlank then
    .ok []
  else
    match given with
    | .obj fields => .ok (Table.ofEntries (fields.map fun f => (canonicalName f.1, f.2)))
    | .arr vs =>
        match vs.mapM entry? with
        | none => .error .badShape
        | some entries =>
            match named? entries with
            | none => .error .nameNotText
            | some entries => .ok (Table.ofEntries entries)
    | _ => .error .badShape

end Parameters

end DocStore
