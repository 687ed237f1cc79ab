import DocStore.Query.Parser

/-!
# The grammar of queries

Which sequences of tokens are queries, and which query they are.

    query      = SELECT [TOP rows] projection FROM name [[AS] name] [WHERE or]
                 [ORDER BY key {, key}] [LIMIT rows]
    projection = * | item {, item}          item = path [AS name]       key = path [ASC | DESC]
    or         = and {OR and}               and  = not {AND not}        not = NOT not | comparison
    comparison = operand [sign operand]
    operand    = literal | parameter | path | call | ( or )
    call       = name ( [or {, or}] )       path = name {. name}

A rule takes a phrase off the front of the tokens and leaves the rest:
`Derives n tokens e rest` says that `tokens` up to `rest` are derived
from the nonterminal `n`. No rule looks at what it leaves, so a phrase
is derived in the same way whatever stands behind it, and a whole
sequence is derived when nothing is left.

A derivation knows nothing of functions, parameters and aliases. What
it gives is the query as written (`RawQuery`), in which literals,
parameters and names are still tokens. The rules beyond the grammar are
conditions on that (`RawQuery.Admitted`), and so is its meaning
(`RawQuery.query`).
-/

namespace DocStore

/-! ## Combinations -/

section Combinations

variable {α : Type}

/-- A phrase that may be left out. -/
inductive Maybe (phrase : List Token → α → List Token → Prop) :
    List Token → Option α → List Token → Prop where
  | absent {tokens : List Token} : Maybe phrase tokens none tokens
  | present {tokens rest : List Token} {a : α} (h : phrase tokens a rest) :
      Maybe phrase tokens (some a) rest

/-- One or more phrases with commas between them. -/
inductive Listed (phrase : List Token → α → List Token → Prop) :
    List Token → List α → List Token → Prop where
  | one {tokens rest : List Token} {a : α} (h : phrase tokens a rest) :
      Listed phrase tokens [a] rest
  | more {tokens more rest : List Token} {comma : Token} {a : α} {as : List α}
      (h : phrase tokens a (comma :: more)) (hcomma : comma.kind = .sign .comma)
      (hs : Listed phrase more as rest) : Listed phrase tokens (a :: as) rest

end Combinations

/-! ## Paths -/

/-- Names, each behind a point. Reserved words and the words of literals
are names there. -/
inductive DerivesNames : List Token → List String → List Token → Prop where
  | nil {tokens : List Token} : DerivesNames tokens [] tokens
  | cons {point name : Token} {tokens rest : List Token} {names : List String}
      (hpoint : point.kind = .sign .dot) (hname : name.kind.isName = true)
      (h : DerivesNames tokens names rest) :
      DerivesNames (point :: name :: tokens) (name.text :: names) rest

/-- A name with names behind points. -/
inductive DerivesPath : List Token → RawPath → List Token → Prop where
  | mk {start : Token} {tokens rest : List Token} {names : List String}
      (hstart : start.kind = .identifier) (h : DerivesNames tokens names rest) :
      DerivesPath (start :: tokens) ⟨start, names⟩ rest

/-! ## Expressions -/

/-- An expression as written, without its parentheses. -/
inductive RawExpr where
  | literal (t : Token)
  | parameter (t : Token)
  | path (p : RawPath)
  | call (name : Token) (args : List RawExpr)
  | not (word : Token) (e : RawExpr)
  | binary (op : BinaryOp) (sign : Token) (left right : RawExpr)

/-- The nonterminals of expressions. -/
inductive Nonterminal where
  | or
  | and
  | not
  | comparison
  | operand
deriving DecidableEq

/-- The rules of expressions. The arguments of a call are phrases of
`argument`, all of which are derived from `or`; a comma list of
derivations could not be an argument of its own rule. -/
inductive Derives : Nonterminal → List Token → RawExpr → List Token → Prop where
  | and_or {tokens rest : List Token} {e : RawExpr} (h : Derives .and tokens e rest) :
      Derives .or tokens e rest
  | or {tokens more rest : List Token} {word : Token} {l r : RawExpr}
      (hl : Derives .or tokens l (word :: more)) (hword : word.kind = .keyword .or)
      (hr : Derives .and more r rest) : Derives .or tokens (.binary .or word l r) rest
  | not_and {tokens rest : List Token} {e : RawExpr} (h : Derives .not tokens e rest) :
      Derives .and tokens e rest
  | and {tokens more rest : List Token} {word : Token} {l r : RawExpr}
      (hl : Derives .and tokens l (word :: more)) (hword : word.kind = .keyword .and)
      (hr : Derives .not more r rest) : Derives .and tokens (.binary .and word l r) rest
  | comparison_not {tokens rest : List Token} {e : RawExpr}
      (h : Derives .comparison tokens e rest) : Derives .not tokens e rest
  | not {tokens rest : List Token} {word : Token} {e : RawExpr}
      (hword : word.kind = .keyword .not) (h : Derives .not tokens e rest) :
      Derives .not (word :: tokens) (.not word e) rest
  | operand_comparison {tokens rest : List Token} {e : RawExpr}
      (h : Derives .operand tokens e rest) : Derives .comparison tokens e rest
  | comparison {tokens more rest : List Token} {sign : Token} {c : Comparison} {l r : RawExpr}
      (hl : Derives .operand tokens l (sign :: more)) (hsign : sign.kind = .comparison c)
      (hr : Derives .operand more r rest) :
      Derives .comparison tokens (.binary (.compare c) sign l r) rest
  | literal {t : Token} {rest : List Token} (ht : t.kind.literal?.isSome = true) :
      Derives .operand (t :: rest) (.literal t) rest
  | parameter {t : Token} {rest : List Token} (ht : t.kind = .parameter) :
      Derives .operand (t :: rest) (.parameter t) rest
  | path {tokens rest : List Token} {p : RawPath} (h : DerivesPath tokens p rest) :
      Derives .operand tokens (.path p) rest
  | emptyCall {name opening closing : Token} {rest : List Token}
      (hname : name.kind = .identifier) (hopening : opening.kind = .sign .leftParen)
      (hclosing : closing.kind = .sign .rightParen) :
      Derives .operand (name :: opening :: closing :: rest) (.call name []) rest
  | call {name opening closing : Token} {tokens rest : List Token} {args : List RawExpr}
      (hname : name.kind = .identifier) (hopening : opening.kind = .sign .leftParen)
      (argument : List Token → RawExpr → List Token → Prop)
      (hargument : ∀ tokens e rest, argument tokens e rest → Derives .or tokens e rest)
      (hargs : Listed argument tokens args (closing :: rest))
      (hclosing : closing.kind = .sign .rightParen) :
      Derives .operand (name :: opening :: tokens) (.call name args) rest
  | parentheses {opening closing : Token} {tokens rest : List Token} {e : RawExpr}
      (hopening : opening.kind = .sign .leftParen) (h : Derives .or tokens e (closing :: rest))
      (hclosing : closing.kind = .sign .rightParen) :
      Derives .operand (opening :: tokens) e rest

namespace RawExpr

mutual

/-- The parameters of an expression. -/
def parameters : RawExpr → List Token
  | literal _ | path _ => []
  | parameter t => [t]
  | call _ args => parametersAll args
  | not _ e => parameters e
  | binary _ _ l r => parameters l ++ parameters r

def parametersAll : List RawExpr → List Token
  | [] => []
  | e :: es => parameters e ++ parametersAll es

end

mutual

/-- The calls of an expression: the name of each and the number of its
arguments. -/
def calls : RawExpr → List (Token × Nat)
  | literal _ | path _ | parameter _ => []
  | call name args => (name, args.length) :: callsAll args
  | not _ e => calls e
  | binary _ _ l r => calls l ++ calls r

def callsAll : List RawExpr → List (Token × Nat)
  | [] => []
  | e :: es => calls e ++ callsAll es

end

mutual

/-- What an expression means, given the values of the parameters and the
names that paths may start with to mean the document. -/
def expr (values : Parameters) (aliases : List String) : RawExpr → Expr
  | literal t => .constant t.kind.literal? t.position
  | parameter t => .constant (values.get? t.text) t.position
  | path p => .property p.text (p.below aliases) p.start.position
  | call name args => .call name.text.upperCase (exprAll values aliases args) name.position
  | not word e => .unary .not (expr values aliases e) word.position
  | binary op sign l r =>
    .binary op (expr values aliases l) (expr values aliases r) sign.position

def exprAll (values : Parameters) (aliases : List String) : List RawExpr → List Expr
  | [] => []
  | e :: es => expr values aliases e :: exprAll values aliases es

end

end RawExpr

/-! ## Clauses -/

/-- A sort key as written. -/
structure RawKey where
  path : RawPath
  direction : SortDirection

/-- What a sort key means. -/
def RawKey.strip (aliases : List String) (key : RawKey) : SortKey :=
  ⟨key.path.text, key.path.below aliases, key.direction⟩

/-- The number of rows behind the word of its clause: an integer, or a
parameter that stands for one. -/
inductive DerivesRows (clause : Keyword) : List Token → Token → List Token → Prop where
  | mk {word t : Token} {rest : List Token} (hword : word.kind = .keyword clause)
      (ht : (∃ n, t.kind = .integer n) ∨ t.kind = .parameter) :
      DerivesRows clause (word :: t :: rest) t rest

/-- A name behind AS. -/
inductive DerivesAs : List Token → String → List Token → Prop where
  | mk {word name : Token} {rest : List Token} (hword : word.kind = .keyword .as_)
      (hname : name.kind = .identifier) : DerivesAs (word :: name :: rest) name.text rest

inductive DerivesItem : List Token → RawItem → List Token → Prop where
  | mk {tokens more rest : List Token} {path : RawPath} {alias? : Option String}
      (hpath : DerivesPath tokens path more) (halias : Maybe DerivesAs more alias? rest) :
      DerivesItem tokens ⟨path, alias?⟩ rest

/-- The projection; none stands for the star. -/
inductive DerivesProjection : List Token → Option (List RawItem) → List Token → Prop where
  | star {t : Token} {rest : List Token} (ht : t.kind = .sign .star) :
      DerivesProjection (t :: rest) none rest
  | items {tokens rest : List Token} {items : List RawItem}
      (h : Listed DerivesItem tokens items rest) : DerivesProjection tokens (some items) rest

/-- The alias of the container, with or without AS. -/
inductive DerivesAlias : List Token → String → List Token → Prop where
  | named {tokens rest : List Token} {name : String} (h : DerivesAs tokens name rest) :
      DerivesAlias tokens name rest
  | bare {name : Token} {rest : List Token} (hname : name.kind = .identifier) :
      DerivesAlias (name :: rest) name.text rest

inductive DerivesWhere : List Token → RawExpr → List Token → Prop where
  | mk {word : Token} {tokens rest : List Token} {e : RawExpr}
      (hword : word.kind = .keyword .where_) (h : Derives .or tokens e rest) :
      DerivesWhere (word :: tokens) e rest

inductive DerivesDirection : List Token → SortDirection → List Token → Prop where
  | none {tokens : List Token} : DerivesDirection tokens .ascending tokens
  | asc {word : Token} {rest : List Token} (hword : word.kind = .keyword .asc) :
      DerivesDirection (word :: rest) .ascending rest
  | desc {word : Token} {rest : List Token} (hword : word.kind = .keyword .desc) :
      DerivesDirection (word :: rest) .descending rest

inductive DerivesKey : List Token → RawKey → List Token → Prop where
  | mk {tokens more rest : List Token} {path : RawPath} {direction : SortDirection}
      (hpath : DerivesPath tokens path more)
      (hdirection : DerivesDirection more direction rest) :
      DerivesKey tokens ⟨path, direction⟩ rest

/-- The sort keys behind ORDER BY; no keys stand for no clause. -/
inductive DerivesOrderBy : List Token → List RawKey → List Token → Prop where
  | absent {tokens : List Token} : DerivesOrderBy tokens [] tokens
  | present {order by_ : Token} {tokens rest : List Token} {keys : List RawKey}
      (horder : order.kind = .keyword .order) (hby : by_.kind = .keyword .by_)
      (h : Listed DerivesKey tokens keys rest) :
      DerivesOrderBy (order :: by_ :: tokens) keys rest

/-! ## Queries -/

/-- A query as written. -/
structure RawQuery where
  top : Option Token
  projection : Option (List RawItem)
  container : Token
  alias? : Option String
  where? : Option RawExpr
  orderBy : List RawKey
  limit : Option Token

/-- The tokens are a query. -/
inductive DerivesQuery : List Token → RawQuery → Prop where
  | mk {select from_ name : Token} {t₁ t₂ t₃ t₄ t₅ t₆ : List Token} {top limit : Option Token}
      {projection : Option (List RawItem)} {alias? : Option String} {where? : Option RawExpr}
      {orderBy : List RawKey} (hselect : select.kind = .keyword .select)
      (htop : Maybe (DerivesRows .top) t₁ top t₂)
      (hprojection : DerivesProjection t₂ projection (from_ :: name :: t₃))
      (hfrom : from_.kind = .keyword .from_) (hname : name.kind = .identifier)
      (halias : Maybe DerivesAlias t₃ alias? t₄) (hwhere : Maybe DerivesWhere t₄ where? t₅)
      (horderBy : DerivesOrderBy t₅ orderBy t₆)
      (hlimit : Maybe (DerivesRows .limit) t₆ limit []) :
      DerivesQuery (select :: t₁) ⟨top, projection, name, alias?, where?, orderBy, limit⟩

/-- The value of a number of rows. -/
def Token.rowValue? (values : Parameters) (t : Token) : Option Json :=
  match t.kind with
  | .integer n => some (.int n)
  | _ => values.get? t.text

/-- A function is called with the number of arguments that it takes. -/
def Registry.Takes (registry : Registry) (call : Token × Nat) : Prop :=
  ∃ f, registry.lookup call.1.text.upperCase = some f ∧ f.arity = call.2

/-- The whole document is selected on its own or under a name. -/
def SelectsAlone (aliases : List String) (projection : Option (List RawItem)) : Prop :=
  ∀ items, projection = some items → (∃ item ∈ items, item.isWhole aliases = true) →
    items.length = 1

/-- What a projection means if it selects the whole document alone. -/
def projectionOf (aliases : List String) : Option (List RawItem) → Projection
  | none => .everything
  | some items =>
    if items.any (·.isWhole aliases) then .everything else .items (items.map (·.strip aliases))

namespace RawQuery

/-- The numbers of rows behind TOP and LIMIT. -/
def rows (q : RawQuery) : List Token :=
  q.top.toList ++ q.limit.toList

/-- The parameters of a query. -/
def parameters (q : RawQuery) : List Token :=
  q.where?.elim [] RawExpr.parameters ++ q.rows.filter (·.kind = .parameter)

/-- The calls of a query. -/
def calls (q : RawQuery) : List (Token × Nat) :=
  q.where?.elim [] RawExpr.calls

/-- The names that paths may start with to mean the document. -/
def aliases (q : RawQuery) : List String :=
  aliasesOf q.container.text q.alias?

/-- The rules beyond the grammar. -/
structure Admitted (registry : Registry) (values : Parameters) (q : RawQuery) : Prop where
  /-- Every parameter has a value. -/
  bound : ∀ t ∈ q.parameters, (values.get? t.text).isSome = true
  /-- Every function is registered, and called with as many arguments as
  it takes. -/
  registered : ∀ call ∈ q.calls, registry.Takes call
  /-- The number of rows is a non-negative integer, neither a boolean nor
  a double. -/
  counts : ∀ t ∈ q.rows, ∃ n : Nat, t.rowValue? values = some (.int n)
  /-- TOP and LIMIT exclude each other. -/
  exclusive : q.top = none ∨ q.limit = none
  alone : SelectsAlone q.aliases q.projection

/-- The limit of an admitted query. -/
def limit? (values : Parameters) (q : RawQuery) : Option Nat :=
  match q.rows.head?.bind (·.rowValue? values) with
  | some (.int n) => some n.toNat
  | _ => none

/-- The query that is written. -/
def query (values : Parameters) (text : String) (q : RawQuery) : Query where
  text := text
  projection := projectionOf q.aliases q.projection
  container := q.container.text
  alias? := q.alias?
  where? := q.where?.map (·.expr values q.aliases)
  orderBy := q.orderBy.map (·.strip q.aliases)
  limit := q.limit? values

end RawQuery

end DocStore
