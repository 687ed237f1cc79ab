import DocStore.Query.Token

/-!
# Queries

A query selects documents of a container: a projection, the container
with an optional alias, an optional condition (`Expr`), sort keys and an
optional limit. Paths are kept twice: as written, for messages, and as
the segments below the document, without the alias.
-/

namespace DocStore

/-- The operators between two operands. -/
inductive BinaryOp where
  | compare (c : Comparison)
  | and
  | or
deriving DecidableEq

def BinaryOp.symbol : BinaryOp → String
  | compare c => c.symbol
  | and => "AND"
  | or => "OR"

/-- The operators before one operand. Only negation has a meaning there;
a tree built by hand may hold another operator in that place. -/
inductive UnaryOp where
  | not
  | misplaced (op : BinaryOp)
deriving DecidableEq

def UnaryOp.symbol : UnaryOp → String
  | not => "NOT"
  | misplaced op => op.symbol

/-- Expressions over a document; `at?` is the place in the query
text. -/
inductive Expr where
  | constant (value : Value) (at? : Option Position)
  | property (path : String) (segments : List String) (at? : Option Position)
  | unary (op : UnaryOp) (operand : Expr) (at? : Option Position)
  | binary (op : BinaryOp) (left right : Expr) (at? : Option Position)
  | call (name : String) (args : List Expr) (at? : Option Position)
deriving Inhabited

namespace Expr

def position? : Expr → Option Position
  | constant _ p | property _ _ p | unary _ _ p | binary _ _ _ p | call _ _ p => p

mutual

/-- The tree of an expression on one line. -/
def display : Expr → String
  | constant v _ => "Constant(" ++ v.display ++ ")"
  | property path _ _ => "Property(" ++ path ++ ")"
  | unary op e _ => "UnaryOp(" ++ op.symbol ++ " " ++ display e ++ ")"
  | binary op l r _ => "BinaryOp(" ++ display l ++ " " ++ op.symbol ++ " " ++ display r ++ ")"
  | call name [] _ => "FunctionCall(" ++ name ++ "())"
  | call name (e :: es) _ =>
      "FunctionCall(" ++ name ++ "(" ++ display e ++ displayRest es ++ "))"

/-- The further arguments of a call, each after a comma. -/
def displayRest : List Expr → String
  | [] => ""
  | e :: es => ", " ++ display e ++ displayRest es

end

end Expr

/-- One selected path; no segments select the whole document. -/
structure SelectItem where
  path : String
  segments : List String
  alias? : Option String
deriving DecidableEq

/-- Where the value is written in the result. -/
def SelectItem.output (item : SelectItem) : List String :=
  match item.alias? with
  | some name => [name]
  | none => item.segments

/-- What a query selects. -/
inductive Projection where
  | everything
  | items (items : List SelectItem)
deriving DecidableEq

/-- The direction of a sort key. -/
inductive SortDirection where
  | ascending
  | descending
deriving DecidableEq

def SortDirection.name : SortDirection → String
  | ascending => "ASC"
  | descending => "DESC"

/-- One sort key. -/
structure SortKey where
  path : String
  segments : List String
  direction : SortDirection
deriving DecidableEq

/-- A query. -/
structure Query where
  text : String
  projection : Projection
  container : String
  alias? : Option String
  where? : Option Expr
  orderBy : List SortKey
  limit : Option Nat

namespace Query

/-- The name that stands for a document in paths. -/
def source (q : Query) : String :=
  match q.alias? with
  | some name => if name.isEmpty then q.container else name
  | none => q.container

/-- A text or null. -/
def textOrNull : Option String → Json
  | some s => .str s
  | none => .null

/-- Texts as an array. -/
def textArray (texts : List String) : Json :=
  .arr (texts.map .str)

/-- The structure of a query as an object. -/
def describe (q : Query) : Fields :=
  let projection : Json :=
    match q.projection with
    | .everything => .str "*"
    | .items items => .arr <| items.map fun item =>
        .obj [("path", .str item.path), ("segments", textArray item.segments),
          ("alias", textOrNull item.alias?)]
  let orderBy := q.orderBy.map fun key => Json.obj
    [("path", .str key.path), ("segments", textArray key.segments),
      ("direction", .str key.direction.name)]
  [("text", .str q.text), ("projection", projection), ("from_name", .str q.container),
    ("from_alias", textOrNull q.alias?), ("where", textOrNull (q.where?.map Expr.display)),
    ("order_by", .arr orderBy),
    ("limit", match q.limit with
      | some n => .int n
      | none => .null)]

end Query

end DocStore
