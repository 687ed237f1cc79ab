import DocStore.Query.Function
import DocStore.Query.Lexer
import DocStore.Query.Parameters
import DocStore.Query.Statement

/-!
# Parsing queries

Recursive descent over the tokens of a query text. Each function reads a
piece at the head of the tokens and returns what is left; it looks one
token ahead. The grammar:

    query      = SELECT [TOP rows] projection FROM name [[AS] name] [WHERE or]
                 [ORDER BY key {, key}] [LIMIT rows]
    projection = * | item {, item}          item = path [AS name]       key = path [ASC | DESC]
    or         = and {OR and}               and  = not {AND not}        not = NOT not | comparison
    comparison = operand [sign operand]
    operand    = literal | parameter | path | call | ( or )
    call       = name ( [or {, or}] )       path = name {. name}

Parameters are replaced by their values and functions are looked up
while parsing. The alias that paths start with is known only behind
FROM, so selected paths are kept as written until then. `Expr.fuel`
bounds the recursion of expressions by the number of tokens.
-/

namespace DocStore

/-- What a parsing function reads: its result and the tokens that are
left. -/
abbrev Parsed (α : Type) := α × List Token

/-- What expressions are parsed against: the functions, the parameters,
the names that paths may start with to mean the document, and the place
behind the last token. -/
structure ParseContext where
  registry : Registry
  parameters : Parameters
  aliases : List String
  stop : Position

/-- The error at the head of the tokens: the grammar asks for something
else. -/
def expectedAt {α : Type} (stop : Position) (what : Expectation) : List Token → Except ParseError α
  | [] => .error ⟨.expected what, stop, none⟩
  | t :: _ => .error ⟨.expected what, t.position, some t.text⟩

/-- An error at a token. -/
def refusedAt {α : Type} (t : Token) (cause : ParseCause) : Except ParseError α :=
  .error ⟨cause, t.position, some t.text⟩

/-- Reads a token of the given kind. -/
def readKind (stop : Position) (kind : TokenKind) (what : Expectation) :
    List Token → Except ParseError (Parsed Token)
  | t :: rest => if t.kind = kind then .ok (t, rest) else expectedAt stop what (t :: rest)
  | [] => expectedAt stop what []

/-- Drops a token of the given kind, if one is at the head. -/
def skipKind (kind : TokenKind) : List Token → Option (List Token)
  | t :: rest => if t.kind = kind then some rest else none
  | [] => none

/-! ## Paths -/

/-- A path as written, with its first token. -/
structure RawPath where
  start : Token
  rest : List String

namespace RawPath

def segments (p : RawPath) : List String :=
  p.start.text :: p.rest

def text (p : RawPath) : String :=
  ".".intercalate p.segments

/-- The segments without a leading alias. -/
def below (p : RawPath) (aliases : List String) : List String :=
  if aliases.contains p.start.text then p.rest else p.segments

/-- Reads the names behind points. -/
def readRest (stop : Position) : List Token → Except ParseError (Parsed (List String))
  | d :: n :: tokens =>
      if d.kind = .sign .dot then
        if n.kind.isName then do
          let (names, left) ← readRest stop tokens
          return (n.text :: names, left)
        else
          expectedAt stop .propertyName (n :: tokens)
      else
        .ok ([], d :: n :: tokens)
  | [d] => if d.kind = .sign .dot then expectedAt stop .propertyName [] else .ok ([], [d])
  | [] => .ok ([], [])

/-- Reads a path. -/
def read (stop : Position) (what : Expectation) (tokens : List Token) :
    Except ParseError (Parsed RawPath) := do
  let (start, tokens) ← readKind stop .identifier what tokens
  let (rest, tokens) ← readRest stop tokens
  return (⟨start, rest⟩, tokens)

end RawPath

/-! ## Expressions -/

/-- The value of a parameter. -/
def ParseContext.parameter (ctx : ParseContext) (t : Token) : Except ParseError Json :=
  match ctx.parameters.get? t.text with
  | some v => .ok v
  | none => refusedAt t (.unknownParameter t.text (Text.sortTexts ctx.parameters.keys))

namespace Expr

/-- The comparison that a token writes. -/
def comparison? (t : Token) : Option Comparison :=
  match t.kind with
  | .comparison c => some c
  | _ => none

mutual

/-- Reads operands of OR. -/
def readOr (ctx : ParseContext) : Nat → List Token → Except ParseError (Parsed Expr)
  | 0, tokens => expectedAt ctx.stop .operand tokens
  | fuel + 1, tokens => do
      let (left, tokens) ← readAnd ctx fuel tokens
      readOrRest ctx fuel left tokens

/-- Reads further operands of OR, each behind the word. -/
def readOrRest (ctx : ParseContext) : Nat → Expr → List Token → Except ParseError (Parsed Expr)
  | 0, _, tokens => expectedAt ctx.stop .operand tokens
  | fuel + 1, left, tokens =>
      match tokens with
      | [] => .ok (left, [])
      | t :: rest =>
          if t.kind = .keyword .or then do
            let (right, tokens) ← readAnd ctx fuel rest
            readOrRest ctx fuel (.binary .or left right t.position) tokens
          else
            .ok (left, t :: rest)

/-- Reads operands of AND. -/
def readAnd (ctx : ParseContext) : Nat → List Token → Except ParseError (Parsed Expr)
  | 0, tokens => expectedAt ctx.stop .operand tokens
  | fuel + 1, tokens => do
      let (left, tokens) ← readNot ctx fuel tokens
      readAndRest ctx fuel left tokens

/-- Reads further operands of AND, each behind the word. -/
def readAndRest (ctx : ParseContext) : Nat → Expr → List Token → Except ParseError (Parsed Expr)
  | 0, _, tokens => expectedAt ctx.stop .operand tokens
  | fuel + 1, left, tokens =>
      match tokens with
      | [] => .ok (left, [])
      | t :: rest =>
          if t.kind = .keyword .and then do
            let (right, tokens) ← readNot ctx fuel rest
            readAndRest ctx fuel (.binary .and left right t.position) tokens
          else
            .ok (left, t :: rest)

/-- Reads a negation or a comparison. -/
def readNot (ctx : ParseContext) : Nat → List Token → Except ParseError (Parsed Expr)
  | 0, tokens => expectedAt ctx.stop .operand tokens
  | fuel + 1, tokens =>
      match tokens with
      | [] => readComparison ctx fuel []
      | t :: rest =>
          if t.kind = .keyword .not then do
            let (operand, tokens) ← readNot ctx fuel rest
            return (.unary .not operand t.position, tokens)
          else
            readComparison ctx fuel (t :: rest)

/-- Reads one operand, or two with a comparison sign between them. -/
def readComparison (ctx : ParseContext) : Nat → List Token → Except ParseError (Parsed Expr)
  | 0, tokens => expectedAt ctx.stop .operand tokens
  | fuel + 1, tokens => do
      let (left, tokens) ← readOperand ctx fuel tokens
      match tokens with
      | [] => return (left, [])
      | t :: rest =>
          match comparison? t with
          | none => return (left, t :: rest)
          | some c =>
              let (right, tokens) ← readOperand ctx fuel rest
              return (.binary (.compare c) left right t.position, tokens)

/-- Reads a literal, a parameter, an expression in parentheses, a call
or a path. -/
def readOperand (ctx : ParseContext) : Nat → List Token → Except ParseError (Parsed Expr)
  | 0, tokens => expectedAt ctx.stop .operand tokens
  | _, [] => expectedAt ctx.stop .operand []
  | fuel + 1, t :: rest =>
      match t.kind.literal? with
      | some v => .ok (.constant (some v) t.position, rest)
      | none =>
          match t.kind with
          | .parameter => do
              let v ← ctx.parameter t
              return (.constant (some v) t.position, rest)
          | .sign .leftParen => do
              let (e, tokens) ← readOr ctx fuel rest
              let (_, tokens) ← readKind ctx.stop (.sign .rightParen) .closingParen tokens
              return (e, tokens)
          | .identifier =>
              match skipKind (.sign .leftParen) rest with
              | some inner => readCall ctx fuel t inner
              | none => do
                  let (path, tokens) ← RawPath.read ctx.stop .operand (t :: rest)
                  return (.property path.text (path.below ctx.aliases) t.position, tokens)
          | _ => expectedAt ctx.stop .operand (t :: rest)

/-- Reads the arguments of a call behind the opening parenthesis, up to
the closing one. The name must be known beforehand, the number of
arguments is checked afterwards. -/
def readCall (ctx : ParseContext) : Nat → Token → List Token → Except ParseError (Parsed Expr)
  | 0, _, tokens => expectedAt ctx.stop .operand tokens
  | fuel + 1, t, tokens =>
      let name := t.text.upperCase
      match ctx.registry.lookup name with
      | none => refusedAt t (.unknownFunction t.text (ctx.registry.hint name))
      | some f => do
          let (args, tokens) ←
            match skipKind (.sign .rightParen) tokens with
            | some _ => .ok ([], tokens)
            | none => readArgs ctx fuel tokens
          let (_, tokens) ← readKind ctx.stop (.sign .rightParen) (.closingCall name) tokens
          if f.arity = args.length then
            return (.call name args t.position, tokens)
          else
            refusedAt t (.wrongArity name f.arity args.length)

/-- Reads one or more arguments with commas between them. -/
def readArgs (ctx : ParseContext) : Nat → List Token → Except ParseError (Parsed (List Expr))
  | 0, tokens => expectedAt ctx.stop .operand tokens
  | fuel + 1, tokens => do
      let (e, tokens) ← readOr ctx fuel tokens
      match skipKind (.sign .comma) tokens with
      | none => return ([e], tokens)
      | some rest =>
          let (es, tokens) ← readArgs ctx fuel rest
          return (e :: es, tokens)

end

/-- Enough fuel for an expression: each token is passed on through at
most eight functions. -/
def fuel (tokens : List Token) : Nat :=
  8 * (tokens.length + 1)

/-- Reads an expression. -/
def read (ctx : ParseContext) (tokens : List Token) : Except ParseError (Parsed Expr) :=
  readOr ctx (fuel tokens) tokens

end Expr

/-! ## Clauses -/

/-- Reads the number of rows behind TOP or LIMIT: an integer or a
parameter that holds one. -/
def readRows (ctx : ParseContext) (clause : RowClause) : List Token → Except ParseError (Parsed Nat)
  | [] => expectedAt ctx.stop (.rowCount clause) []
  | t :: rest => do
      let v ←
        match t.kind with
        | .integer n => .ok (Json.int n)
        | .parameter => ctx.parameter t
        | _ => expectedAt ctx.stop (.rowCount clause) (t :: rest)
      match v with
      | .int (.ofNat n) => return (n, rest)
      | v => refusedAt t (.badRowCount clause v)

/-- Reads a name behind AS, if the word is there. -/
def readAs (stop : Position) (what : Expectation) (tokens : List Token) :
    Except ParseError (Parsed (Option String)) := do
  match skipKind (.keyword .as_) tokens with
  | none => return (none, tokens)
  | some rest =>
      let (name, tokens) ← readKind stop .identifier what rest
      return (some name.text, tokens)

/-- A selected path as written. -/
structure RawItem where
  path : RawPath
  alias? : Option String

/-- Reads one or more selected paths with commas between them. -/
def readItems (stop : Position) : Nat → List Token → Except ParseError (Parsed (List RawItem))
  | 0, tokens => expectedAt stop .projection tokens
  | fuel + 1, tokens => do
      let (path, tokens) ← RawPath.read stop .projection tokens
      let (alias?, tokens) ← readAs stop .outputName tokens
      match skipKind (.sign .comma) tokens with
      | none => return ([⟨path, alias?⟩], tokens)
      | some rest =>
          let (items, tokens) ← readItems stop fuel rest
          return (⟨path, alias?⟩ :: items, tokens)

/-- Reads the projection; none stands for the star. -/
def readProjection (stop : Position) (tokens : List Token) :
    Except ParseError (Parsed (Option (List RawItem))) :=
  match skipKind (.sign .star) tokens with
  | some rest => .ok (none, rest)
  | none => do
      let (items, tokens) ← readItems stop (tokens.length + 1) tokens
      return (some items, tokens)

/-- A selected path that is the whole document and has no name for the
result. -/
def RawItem.isWhole (aliases : List String) (item : RawItem) : Bool :=
  (item.path.below aliases).isEmpty && item.alias?.isNone

def RawItem.strip (aliases : List String) (item : RawItem) : SelectItem :=
  ⟨item.path.text, item.path.below aliases, item.alias?⟩

/-- The projection, once the alias is known. The whole document can be
selected on its own, not beside other paths. -/
def buildProjection (aliases : List String) :
    Option (List RawItem) → Except ParseError Projection
  | none => .ok .everything
  | some [item] =>
      .ok (if item.isWhole aliases then .everything else .items [item.strip aliases])
  | some items =>
      match items.find? (·.isWhole aliases) with
      | some item => refusedAt item.path.start .wholeDocumentMixed
      | none => .ok (.items (items.map (·.strip aliases)))

/-- Reads the alias of the container: a name, with or without AS. -/
def readAlias (stop : Position) (tokens : List Token) :
    Except ParseError (Parsed (Option String)) :=
  match skipKind (.keyword .as_) tokens, tokens with
  | none, t :: rest => .ok (if t.kind = .identifier then (some t.text, rest) else (none, tokens))
  | _, _ => readAs stop .sourceAlias tokens

/-- The names that paths may start with: the declared alias, or else the
container and two names in common use. -/
def aliasesOf (container : String) : Option String → List String
  | some name => [name]
  | none => [container, "c", "r"]

/-- Reads the direction of a sort key; ascending unless it says
otherwise. -/
def readDirection (tokens : List Token) : SortDirection × List Token :=
  match skipKind (.keyword .desc) tokens, skipKind (.keyword .asc) tokens with
  | some rest, _ => (.descending, rest)
  | none, some rest => (.ascending, rest)
  | none, none => (.ascending, tokens)

/-- Reads one or more sort keys with commas between them. -/
def readKeys (stop : Position) (aliases : List String) :
    Nat → List Token → Except ParseError (Parsed (List SortKey))
  | 0, tokens => expectedAt stop .orderKey tokens
  | fuel + 1, tokens => do
      let (path, tokens) ← RawPath.read stop .orderKey tokens
      let (direction, tokens) := readDirection tokens
      let key : SortKey := ⟨path.text, path.below aliases, direction⟩
      match skipKind (.sign .comma) tokens with
      | none => return ([key], tokens)
      | some rest =>
          let (keys, tokens) ← readKeys stop aliases fuel rest
          return (key :: keys, tokens)

/-- Reads the condition, if there is one. -/
def readWhere (ctx : ParseContext) (tokens : List Token) :
    Except ParseError (Parsed (Option Expr)) :=
  match skipKind (.keyword .where_) tokens with
  | none => .ok (none, tokens)
  | some rest => do
      let (e, tokens) ← Expr.read ctx rest
      return (some e, tokens)

/-- Reads the sort keys, if there are any. -/
def readOrderBy (ctx : ParseContext) (tokens : List Token) :
    Except ParseError (Parsed (List SortKey)) :=
  match skipKind (.keyword .order) tokens with
  | none => .ok ([], tokens)
  | some rest => do
      let (_, tokens) ← readKind ctx.stop (.keyword .by_) .orderBy rest
      readKeys ctx.stop ctx.aliases (tokens.length + 1) tokens

/-- Reads the rows behind TOP, if the word is there. -/
def readTop (ctx : ParseContext) (tokens : List Token) : Except ParseError (Parsed (Option Nat)) :=
  match skipKind (.keyword .top) tokens with
  | none => .ok (none, tokens)
  | some rest => do
      let (n, tokens) ← readRows ctx .top rest
      return (some n, tokens)

/-- Reads the rows behind LIMIT, if the word is there; TOP and LIMIT
exclude each other. -/
def readLimit (ctx : ParseContext) (top : Option Nat) :
    List Token → Except ParseError (Parsed (Option Nat))
  | [] => .ok (top, [])
  | t :: rest =>
      if t.kind = .keyword .limit then
        if top.isSome then
          refusedAt t .topAndLimit
        else do
          let (n, tokens) ← readRows ctx .limit rest
          return (some n, tokens)
      else
        .ok (top, t :: rest)

/-- Reads a query; no token may be left. -/
def readQuery (ctx : ParseContext) (text : String) (tokens : List Token) :
    Except ParseError Query := do
  let stop := ctx.stop
  let (_, tokens) ← readKind stop (.keyword .select) .select tokens
  let (top, tokens) ← readTop ctx tokens
  let (raw, tokens) ← readProjection stop tokens
  let (_, tokens) ← readKind stop (.keyword .from_) .source tokens
  let (container, tokens) ← readKind stop .identifier .container tokens
  let (alias?, tokens) ← readAlias stop tokens
  let ctx := { ctx with aliases := aliasesOf container.text alias? }
  let projection ← buildProjection ctx.aliases raw
  let (where?, tokens) ← readWhere ctx tokens
  let (orderBy, tokens) ← readOrderBy ctx tokens
  let (limit, tokens) ← readLimit ctx top tokens
  match tokens with
  | [] => return ⟨text, projection, container.text, alias?, where?, orderBy, limit⟩
  | t :: _ => expectedAt stop .endOfQuery [t]

/-! ## Texts -/

/-- Why a query text with parameters gives no query. -/
inductive QueryRefusal where
  | text (e : ParseError)
  | parameters (e : ParameterError)

/-- A text of blanks alone is no query. -/
def isBlankText (text : String) : Bool :=
  text.toList.all Text.isBlank

/-- Parses a query text. The text is divided into tokens before the
parameters are looked at. -/
def Query.parse (registry : Registry) (text : String) (given : Json) :
    Except QueryRefusal Query := do
  if isBlankText text then
    .error (.text ⟨.emptyQuery, .start, none⟩)
  let ⟨tokens, stop⟩ ← (TokenList.ofText text).mapError .text
  let parameters ← (Parameters.normalize given).mapError .parameters
  (readQuery ⟨registry, parameters, [], stop⟩ text tokens).mapError .text

end DocStore
