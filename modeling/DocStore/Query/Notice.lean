import DocStore.Query.EvalError
import DocStore.Run

/-!
# Notices

What the parts of the query engine tell an observer, and the
computations that tell it.
-/

namespace DocStore

/-- The stages of execution, in their order. -/
inductive Stage where
  | filter
  | order
  | limit
  | project
deriving DecidableEq

def Stage.name : Stage → String
  | filter => "filter"
  | order => "order"
  | limit => "limit"
  | project => "project"

/-- One thing an observer is told. -/
inductive Notice where
  | parseStart (text : String)
  | parseEnd (query : Query)
  | parseError (text : String) (error : ParseError)
  | comparison (op : Comparison) (left right result : Value)
  | predicate (document : Json) (matched : Bool) (error : Option EvalError)
  | stage (stage : Stage) (input output : Nat)
  | page (offset returned : Nat) (hasMore : Bool)

/-- A computation of the query engine that fails with errors of one
type. -/
abbrev Noticed (ε α : Type) := Run Notice ε α

end DocStore
