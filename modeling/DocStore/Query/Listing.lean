import DocStore.Json.Writer
import DocStore.Query.Parser

/-!
# Listing a query text

For debugging, a query text is shown with its tokens and its structure.
A text that is refused is shown with the reason.
-/

namespace DocStore

/-- The last line of the token list. -/
def stopLine (stop : Position) : String :=
  "EOF at " ++ stop.text

/-- The tokens of a text, one a line, or the reason why it has none. -/
def tokenLines (text : String) : List String :=
  match TokenList.ofText text with
  | .ok ts => (ts.tokens.map Token.display ++ [stopLine ts.stop]).map ("  " ++ ·)
  | .error e => ["  <lexer error: " ++ e.report.text ++ ">"]

/-- The structure of a query, one field a line. -/
def structureLines (q : Query) : List String :=
  ((Json.obj q.describe).writeIndented.splitOn "\n").map ("  " ++ ·)

/-- The listing of a query text. -/
def listing (r : Registry) (text : String) (given : Json) : Except ParameterError String := do
  let head := ["Query: " ++ text, "Tokens:"] ++ tokenLines text
  let tail ←
    match Query.parse r text given with
    | .ok q => .ok ("Parsed:" :: structureLines q)
    | .error (.text e) => .ok ["Parse error: " ++ e.report.text]
    | .error (.parameters e) => .error e
  return "\n".intercalate (head ++ tail)

end DocStore
