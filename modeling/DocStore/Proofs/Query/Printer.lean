import DocStore.Proofs.Query.Render
import DocStore.Query.Parser
import DocStore.Text.Split

/-!
# Writing queries

A printer for the whole query language. It writes a query as lexemes
(`Query.write`), which `Lexeme.renderText` turns into a text.

Expressions have a level of precedence: OR, AND, NOT, comparisons and
operands, from 0 to 4. Each place asks for a level, and an expression
stands in parentheses where its own level is lower. AND and OR take
their own level on the left only, so they associate to the left;
comparisons take operands on both sides, so they do not associate.

A `Style` says which constants are written as literals. Any other is
written as a parameter. Parameters are counted from the start of the
query: `Expr.bound` lists their values in the order of their places, and
`write` takes the number of those that stand before.

`Query.Printable` says which queries can be written at all: their names
are words of the language, paths carry the segments that the parser
gives them, and calls fit the functions of the registry.
-/

namespace DocStore

open Lexeme

/-! ## Queries without positions -/

namespace Expr

mutual

/-- The expression without the places in the query text. -/
def unplaced : Expr → Expr
  | constant v _ => constant v none
  | property path segments _ => property path segments none
  | unary op e _ => unary op e.unplaced none
  | binary op l r _ => binary op l.unplaced r.unplaced none
  | call name args _ => call name (unplacedAll args) none

def unplacedAll : List Expr → List Expr
  | [] => []
  | e :: es => e.unplaced :: unplacedAll es

end

theorem unplacedAll_eq_map (es : List Expr) : unplacedAll es = es.map unplaced := by
  induction es with
  | nil => rfl
  | cons e es ih => rw [unplacedAll, ih, List.map_cons]

end Expr

/-- The query without its text and the places in it. -/
def Query.unplaced (q : Query) : Query :=
  { q with text := "", where? := q.where?.map Expr.unplaced }

/-! ## Constants -/

/-- Which constants are written as literals, and how. -/
abbrev Style := Json → Option Lexeme

namespace Style

/-- Strings, integers, booleans and null are literals. -/
def literals : Style
  | .null => some (ofWord "null")
  | .bool b => some (ofWord (if b then "true" else "false"))
  | .int n => some (ofInt n)
  | .str s => some (ofString s)
  | _ => none

/-- Strings, integers of no more digits than the lexer reads, booleans
and null are literals. -/
def shortLiterals : Style
  | .int n =>
    if (Nat.toDigits 10 n.natAbs).length ≤ Text.maxIntDigits then literals (.int n) else none
  | v => literals v

/-- The name of the `k`th parameter behind its `@`. -/
def parameterName (k : Nat) : List Char :=
  'p' :: Nat.toDigits 10 k

/-- A constant, or the parameter that stands for it. -/
def write (style : Style) (k : Nat) (v : Json) : Lexeme :=
  (style v).getD (ofParameter (parameterName k))

/-- The value of the parameter, if one is written. -/
def bound (style : Style) (v : Json) : List Json :=
  if (style v).isSome then [] else [v]

end Style

/-! ## Paths -/

/-- The names of a path as written. -/
def pathNames (path : String) : List String :=
  (Text.splitAtChar '.' path.toList).map String.ofList

def writeNames : List String → List Lexeme
  | [] => []
  | name :: names => ofWord name :: names.flatMap fun s => [ofSign .dot, ofWord s]

def writePath (path : String) : List Lexeme :=
  writeNames (pathNames path)

/-- A path as the parser takes it: its first name is an identifier, and
its segments leave out an alias. -/
def IsPath (aliases : List String) (path : String) (segments : List String) : Prop :=
  ∃ first rest, pathNames path = first :: rest ∧ IsName first ∧ (∀ s ∈ rest, IsSegment s) ∧
    segments = if aliases.contains first then rest else first :: rest

/-! ## Expressions -/

namespace BinaryOp

def lexeme : BinaryOp → Lexeme
  | compare c => ofComparison c
  | and => ofKeyword .and
  | or => ofKeyword .or

/-- The level of an expression with the operator. -/
def level : BinaryOp → Nat
  | compare _ => 3
  | and => 1
  | or => 0

/-- The level that the operator asks for on its left. -/
def leftLevel : BinaryOp → Nat
  | compare _ => 4
  | and => 1
  | or => 0

/-- The level that the operator asks for on its right. -/
def rightLevel : BinaryOp → Nat
  | compare _ => 4
  | and => 2
  | or => 1

end BinaryOp

/-- Lexemes in parentheses. -/
def parenthesize (ls : List Lexeme) : List Lexeme :=
  ofSign .leftParen :: (ls ++ [ofSign .rightParen])

namespace Expr

/-- The level of precedence; operands have the highest. -/
def level : Expr → Nat
  | unary .. => 2
  | binary op .. => op.level
  | _ => 4

/-- An expression, written as `ls`, in a place that asks for a level. -/
def bracket (n : Nat) (e : Expr) (ls : List Lexeme) : List Lexeme :=
  if e.level < n then parenthesize ls else ls

mutual

/-- The values of the parameters, in the order of their places. -/
def bound (style : Style) : Expr → List Json
  | constant (some v) _ => style.bound v
  | constant none _ => []
  | property .. => []
  | unary _ e _ => bound style e
  | binary _ l r _ => bound style l ++ bound style r
  | call _ args _ => boundAll style args

def boundAll (style : Style) : List Expr → List Json
  | [] => []
  | e :: es => bound style e ++ boundAll style es

end

mutual

/-- The lexemes of an expression with `k` parameters before it. The
undefined value has none. -/
def write (style : Style) (k : Nat) : Expr → List Lexeme
  | constant (some v) _ => [style.write k v]
  | constant none _ => []
  | property path _ _ => writePath path
  | unary _ e _ => ofKeyword .not :: e.bracket 2 (write style k e)
  | binary op l r _ =>
    l.bracket op.leftLevel (write style k l) ++
      op.lexeme :: r.bracket op.rightLevel (write style (k + (bound style l).length) r)
  | call name args _ => ofWord name :: parenthesize (writeArgs style k args)

/-- The arguments of a call with commas between them. -/
def writeArgs (style : Style) (k : Nat) : List Expr → List Lexeme
  | [] => []
  | [e] => write style k e
  | e :: f :: es =>
    write style k e ++
      ofSign .comma :: writeArgs style (k + (bound style e).length) (f :: es)

end

mutual

/-- The expression can be written: no undefined value, no operator but
NOT before an operand, calls of known functions only. -/
def Printable (registry : Registry) (aliases : List String) : Expr → Prop
  | constant v _ => v ≠ none
  | property path segments _ => IsPath aliases path segments
  | unary op e _ => op = .not ∧ Printable registry aliases e
  | binary _ l r _ => Printable registry aliases l ∧ Printable registry aliases r
  | call name args _ =>
    IsName name ∧ name.upperCase = name ∧
      (∃ f, registry.lookup name = some f ∧ f.arity = args.length) ∧
      PrintableAll registry aliases args

def PrintableAll (registry : Registry) (aliases : List String) : List Expr → Prop
  | [] => True
  | e :: es => Printable registry aliases e ∧ PrintableAll registry aliases es

end

end Expr

/-! ## Queries -/

/-- Entries of a list with commas between them. -/
def writeList {α : Type} (write : α → List Lexeme) : List α → List Lexeme
  | [] => []
  | [a] => write a
  | a :: b :: as => write a ++ ofSign .comma :: writeList write (b :: as)

/-- A name behind AS, if there is one. -/
def writeAs : Option String → List Lexeme
  | none => []
  | some name => [ofKeyword .as_, ofWord name]

namespace SelectItem

def write (item : SelectItem) : List Lexeme :=
  writePath item.path ++ writeAs item.alias?

/-- The item is no bare alias of the container, and can be written. -/
def Printable (aliases : List String) (item : SelectItem) : Prop :=
  IsPath aliases item.path item.segments ∧ (∀ name ∈ item.alias?, IsName name) ∧
    ¬ (item.segments = [] ∧ item.alias? = none)

end SelectItem

namespace Projection

def write : Projection → List Lexeme
  | everything => [ofSign .star]
  | items is => writeList SelectItem.write is

def Printable (aliases : List String) : Projection → Prop
  | everything => True
  | items is => is ≠ [] ∧ ∀ item ∈ is, item.Printable aliases

end Projection

def SortDirection.keyword : SortDirection → Keyword
  | ascending => .asc
  | descending => .desc

def SortKey.write (key : SortKey) : List Lexeme :=
  writePath key.path ++ [ofKeyword key.direction.keyword]

namespace Query

def writeWhere (style : Style) : Option Expr → List Lexeme
  | none => []
  | some e => ofKeyword .where_ :: e.write style 0

def writeOrderBy : List SortKey → List Lexeme
  | [] => []
  | key :: keys => ofKeyword .order :: ofKeyword .by_ :: writeList SortKey.write (key :: keys)

def writeLimit (style : Style) (k : Nat) : Option Nat → List Lexeme
  | none => []
  | some n => [ofKeyword .limit, style.write k (.int n)]

/-- The values of the parameters in the condition. -/
def whereBound (style : Style) (q : Query) : List Json :=
  q.where?.elim [] (·.bound style)

/-- The values of all parameters. -/
def bound (style : Style) (q : Query) : List Json :=
  q.whereBound style ++ q.limit.elim [] fun n => style.bound (.int n)

/-- The lexemes of a query. -/
def write (style : Style) (q : Query) : List Lexeme :=
  ofKeyword .select :: (q.projection.write ++
    ofKeyword .from_ :: ofWord q.container :: (writeAs q.alias? ++
      (writeWhere style q.where? ++ (writeOrderBy q.orderBy ++
        writeLimit style (q.whereBound style).length q.limit))))

/-- The text of a query. -/
def print (style : Style) (q : Query) : String :=
  renderText (q.write style)

/-- The parameters of a query text as an object. -/
def parameters (style : Style) (q : Query) : Json :=
  .obj <| (q.bound style).mapIdx fun k v =>
    (String.ofList ('@' :: Style.parameterName k), v)

/-- The query can be written. -/
structure Printable (registry : Registry) (q : Query) : Prop where
  projection : q.projection.Printable (aliasesOf q.container q.alias?)
  container : IsName q.container
  sourceAlias : ∀ name ∈ q.alias?, IsName name
  condition : ∀ e ∈ q.where?, e.Printable registry (aliasesOf q.container q.alias?)
  orderBy : ∀ key ∈ q.orderBy, IsPath (aliasesOf q.container q.alias?) key.path key.segments

end Query

end DocStore
