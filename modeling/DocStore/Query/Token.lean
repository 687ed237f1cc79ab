import DocStore.Json.Display

/-!
# Tokens

The words of the query language. A token is its kind, the raw text it
was read from and the position of that text; only literals carry a value
of their own. Positions count characters: lines and columns from one,
offsets from zero.
-/

namespace DocStore

/-- A place in a query text. -/
structure Position where
  line : Nat
  column : Nat
  offset : Nat
deriving DecidableEq

namespace Position

/-- The place of the first character. -/
def start : Position := ⟨1, 1, 0⟩

/-- The place behind a character. -/
def next (p : Position) (c : Char) : Position :=
  if c = '\n' then ⟨p.line + 1, 1, p.offset + 1⟩ else ⟨p.line, p.column + 1, p.offset + 1⟩

/-- The place behind a text. -/
def advance (p : Position) (cs : List Char) : Position :=
  cs.foldl next p

/-- The place as messages name it. -/
def text (p : Position) : String :=
  "line " ++ natText p.line ++ ", column " ++ natText p.column

end Position

/-- The reserved words of the clauses and connectives. -/
inductive Keyword where
  | select
  | top
  | from_
  | as_
  | where_
  | order
  | by_
  | asc
  | desc
  | limit
  | and
  | or
  | not
deriving DecidableEq

namespace Keyword

/-- The reserved words in lower case. -/
def table : Table Keyword :=
  [("select", select), ("top", top), ("from", from_), ("as", as_), ("where", where_),
    ("order", order), ("by", by_), ("asc", asc), ("desc", desc), ("limit", limit), ("and", and),
    ("or", or), ("not", not)]

def name : Keyword → String
  | select => "SELECT"
  | top => "TOP"
  | from_ => "FROM"
  | as_ => "AS"
  | where_ => "WHERE"
  | order => "ORDER"
  | by_ => "BY"
  | asc => "ASC"
  | desc => "DESC"
  | limit => "LIMIT"
  | and => "AND"
  | or => "OR"
  | not => "NOT"

end Keyword

/-- The comparison operators. -/
inductive Comparison where
  | eq
  | ne
  | gt
  | ge
  | lt
  | le
deriving DecidableEq

namespace Comparison

/-- The name of the token that writes the operator. -/
def name : Comparison → String
  | eq => "EQ"
  | ne => "NE"
  | gt => "GT"
  | ge => "GE"
  | lt => "LT"
  | le => "LE"

/-- The operator as written; inequality has a second spelling. -/
def symbol : Comparison → String
  | eq => "="
  | ne => "!="
  | gt => ">"
  | ge => ">="
  | lt => "<"
  | le => "<="

end Comparison

/-- The other signs. -/
inductive Sign where
  | leftParen
  | rightParen
  | comma
  | dot
  | star
deriving DecidableEq

namespace Sign

def name : Sign → String
  | leftParen => "LPAREN"
  | rightParen => "RPAREN"
  | comma => "COMMA"
  | dot => "DOT"
  | star => "STAR"

/-- The sign that a character writes. -/
def ofChar? : Char → Option Sign
  | '(' => some leftParen
  | ')' => some rightParen
  | ',' => some comma
  | '.' => some dot
  | '*' => some star
  | _ => none

end Sign

/-- The kinds of tokens; literals carry their value. -/
inductive TokenKind where
  | string (s : String)
  | integer (n : Int)
  | float (x : Double)
  | boolean (b : Bool)
  | null
  | parameter
  | identifier
  | keyword (k : Keyword)
  | comparison (c : Comparison)
  | sign (s : Sign)
deriving DecidableEq

namespace TokenKind

def name : TokenKind → String
  | string _ => "STRING"
  | integer _ => "INTEGER"
  | float _ => "FLOAT"
  | boolean _ => "BOOLEAN"
  | null => "NULL"
  | parameter => "PARAMETER"
  | identifier => "IDENTIFIER"
  | keyword k => k.name
  | comparison c => c.name
  | sign s => s.name

/-- A reserved word of a clause or a connective. -/
def isKeyword : TokenKind → Bool
  | keyword _ => true
  | _ => false

/-- The value of a literal. -/
def literal? : TokenKind → Option Json
  | string s => some (.str s)
  | integer n => some (.int n)
  | float x => some (.float x)
  | boolean b => some (.bool b)
  | null => some .null
  | _ => none

/-- The token can name a property behind a point: every word can,
reserved or not. -/
def isName : TokenKind → Bool
  | identifier | keyword _ | boolean _ | null => true
  | _ => false

end TokenKind

/-- A token of a query text. -/
structure Token where
  kind : TokenKind
  position : Position
  text : String
deriving DecidableEq

namespace Token

/-- The value of a token: a literal's own, else its raw text. -/
def value (t : Token) : Json :=
  t.kind.literal?.getD (.str t.text)

/-- The token as listings show it. -/
def display (t : Token) : String :=
  t.kind.name ++ "(" ++ t.value.display ++ ") at " ++ t.position.text

end Token

end DocStore
