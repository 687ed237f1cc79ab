import DocStore.Validation.Reader

/-!
# Query requests

A query request is an object that holds a query text and a list of
parameters, each with a name that starts with `@` and a value.
-/

namespace DocStore

open Validation

/-- A query text with values for its parameters. -/
structure QueryRequest where
  text : String
  parameters : List (String × Json)

namespace QueryRequest

/-- Why a text is no parameter name. -/
def nameRefusal? (s : String) : Option String :=
  match s.toList with
  | '@' :: _ :: _ => none
  | _ => some "Parameter names must start with '@'"

def readParameter : Reader (String × Json) :=
  record "QueryParameter" fun entries =>
    Prod.mk <$> requiredField entries "name" (textThat nameRefusal?) <*>
      optionalField entries "value" .null anything

def read : Reader QueryRequest :=
  record "QueryRequest" fun entries =>
    mk <$> requiredField entries "query" Validation.text <*>
      optionalField entries "parameters" [] (list readParameter)

/-- The parameters as an object; of two values for one name the last
counts. -/
def values (r : QueryRequest) : Json :=
  .obj (Table.ofEntries r.parameters)

end QueryRequest

end DocStore
