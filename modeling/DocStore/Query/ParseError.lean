import DocStore.Query.ErrorReport

/-!
# Parse errors

Why a query text is refused, where, and at which token. The causes fall
in three groups: texts that do not divide into tokens, tokens that fit
no clause (`Expectation`), and clauses that break a rule of their own.
`ParseError.report` words them.
-/

namespace DocStore

/-- The two clauses that limit the number of results. -/
inductive RowClause where
  | top
  | limit
deriving DecidableEq

def RowClause.name : RowClause → String
  | top => "TOP"
  | limit => "LIMIT"

/-- What the grammar asks for at a token. -/
inductive Expectation where
  | select
  | rowCount (clause : RowClause)
  | projection
  | outputName
  | source
  | container
  | sourceAlias
  | orderBy
  | orderKey
  | propertyName
  | operand
  | closingParen
  | closingCall (name : String)
  | endOfQuery
deriving DecidableEq

namespace Expectation

def message : Expectation → String
  | select => "Expected SELECT"
  | rowCount clause => "Expected an integer after " ++ clause.name
  | projection => "Expected '*' or a property path in SELECT"
  | outputName => "Expected an output name after AS"
  | source => "Expected FROM after the projection"
  | container => "Expected a container reference after FROM"
  | sourceAlias => "Expected an alias after AS"
  | orderBy => "Expected BY after ORDER"
  | orderKey => "Expected a property path in ORDER BY"
  | propertyName => "Expected a property name after '.'"
  | operand => "Expected a value, property path or function call"
  | closingParen => "Expected closing parenthesis ')'"
  | closingCall name => "Expected ')' to close " ++ name ++ "("
  | endOfQuery => "Unexpected token"

def suggestion : Expectation → Option String
  | select => some "Queries start with: SELECT * FROM c"
  | operand => some "Check for a missing operand or misplaced keyword"
  | endOfQuery => some "Check for missing operators, commas or parentheses"
  | _ => none

end Expectation

/-- What is offered for an unknown function. -/
inductive FunctionHint where
  | didYouMean (name : String)
  | available (names : List String)
deriving DecidableEq

def FunctionHint.text : FunctionHint → String
  | didYouMean name => "Did you mean '" ++ name ++ "'?"
  | available names => "Available functions: " ++ ", ".intercalate names

/-- Why a query text is refused. -/
inductive ParseCause where
  | unterminatedString (quote : Char)
  | malformedNumber (text : String)
  | missingParameterName
  | loneExclamation
  | unexpectedChar (c : Char)
  | emptyQuery
  | expected (what : Expectation)
  | badRowCount (clause : RowClause) (value : Json)
  | topAndLimit
  | wholeDocumentMixed
  | unknownParameter (name : String) (known : List String)
  | unknownFunction (name : String) (hint : FunctionHint)
  | wrongArity (name : String) (arity : Int) (given : Nat)

namespace ParseCause

/-- The text does not divide into tokens. -/
def isLexical : ParseCause → Bool
  | unterminatedString _ | malformedNumber _ | missingParameterName | loneExclamation
  | unexpectedChar _ => true
  | _ => false

/-- The message, given the token at which the parser stopped. -/
def message (token : Option String) : ParseCause → String
  | unterminatedString _ => "Unterminated string literal"
  | malformedNumber text => "Invalid number format: " ++ text
  | missingParameterName => "Expected parameter name after '@'"
  | loneExclamation => "Unexpected character: '!'"
  | unexpectedChar c => "Unexpected character: " ++ (String.ofList [c]).inQuotes
  | emptyQuery => "Query text is empty"
  | expected what =>
      what.message ++ ", found " ++
        match token with
        | some t => t.inQuotes
        | none => "end of query"
  | badRowCount clause value =>
      clause.name ++ " requires a non-negative integer, got " ++ value.display
  | topAndLimit => "TOP and LIMIT cannot be used in the same query"
  | wholeDocumentMixed => "Selecting the whole document cannot be combined with other items"
  | unknownParameter name _ => "Unknown query parameter: " ++ name
  | unknownFunction name _ => "Unknown function: " ++ name
  | wrongArity name arity given =>
      "Function " ++ name ++ " expects " ++ intText arity ++ " argument(s), got " ++ natText given

def suggestion : ParseCause → Option String
  | unterminatedString quote => some ("Add closing quote (" ++ String.ofList [quote] ++ ")")
  | malformedNumber _ => some "Check for malformed exponent or decimal point"
  | missingParameterName => some "Use format: @paramName"
  | loneExclamation => some "Use '!=' for inequality or NOT for negation"
  | expected what => what.suggestion
  | topAndLimit => some "Remove either the TOP or the LIMIT clause"
  | wholeDocumentMixed => some "Use AS to name the document or select it on its own"
  | unknownParameter name known =>
      let names := if known.isEmpty then "none" else ", ".intercalate known
      some ("Supply a value for " ++ name ++ " (known parameters: " ++ names ++ ")")
  | unknownFunction _ hint => some hint.text
  | _ => none

end ParseCause

/-- A query text is refused: the cause, the place and the raw text of
the token there, which is missing at the end of the text. -/
structure ParseError where
  cause : ParseCause
  position : Position
  token : Option String

namespace ParseError

def label (e : ParseError) : String :=
  if e.cause.isLexical then "LexerError" else "ParseError"

def report (e : ParseError) : ErrorReport :=
  { label := e.label
    message := e.cause.message e.token
    position := some e.position
    suggestion := e.cause.suggestion
    token := e.token }

end ParseError

end DocStore
