import DocStore.Query.Token

/-!
# Error reports

Every error of a query is reported the same way: the label of its class,
a message, and, where it is known, the place in the query text, the
token that stands there and a suggestion.
-/

namespace DocStore

/-- What is reported of an error. -/
structure ErrorReport where
  label : String
  message : String
  position : Option Position
  suggestion : Option String
  token : Option String
deriving DecidableEq

namespace ErrorReport

/-- A report of nothing but a message. -/
def plain (label message : String) : ErrorReport :=
  ⟨label, message, none, none, none⟩

/-- The full text: the message, the place and the suggestion. -/
def text (r : ErrorReport) : String :=
  let place :=
    match r.position with
    | some p => " (at " ++ p.text ++ ")"
    | none => ""
  let hint :=
    match r.suggestion with
    | some s => "\n  Suggestion: " ++ s
    | none => ""
  r.message ++ place ++ hint

/-- A place as an object. -/
def positionFields (p : Position) : Json :=
  .obj [("line", .int p.line), ("column", .int p.column), ("offset", .int p.offset)]

/-- The report as an object; what is not known has no field. -/
def details (r : ErrorReport) : Json :=
  .obj <|
    [("code", .str "BadRequest"), ("message", .str r.message)] ++
    (r.position.map fun p => ("position", positionFields p)).toList ++
    (r.suggestion.map fun s => ("suggestion", .str s)).toList ++
    (r.token.map fun t => ("token", .str t)).toList

end ErrorReport

end DocStore
