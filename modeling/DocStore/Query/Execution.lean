import DocStore.Query.Evaluation
import DocStore.Query.Parser
import DocStore.Sorting.Basic

/-!
# Executing queries

A query runs over a list of documents in four stages, each complete
before the next: filter, order, limit, project. In lenient mode a
document on which the condition fails for a reason of its own is left
out; in strict mode the first such document ends the query. Documents
that miss a sort key come first in either direction. Documents are
objects; what is selected of any other value has no meaning.
-/

namespace DocStore

/-- Why a query gives no result on its documents. -/
inductive ExecutionError where
  | evaluation (e : EvalError)
  | ordering (e : Overflow)
  | projection (e : PathError)
deriving DecidableEq

/-! ## Filter -/

/-- The documents for which the condition holds. -/
def filterDocuments (r : Registry) (strict : Bool) (condition : Expr) :
    List Json → Noticed EvalError (List Json)
  | [] => pure []
  | document :: rest => do
      match ← (condition.holds r document).attempt with
      | .ok matched =>
          Run.notify (.predicate document matched none)
          let kept ← filterDocuments r strict condition rest
          pure (if matched then document :: kept else kept)
      | .error e =>
          if e.isDocumentLevel then
            Run.notify (.predicate document false (some e))
            if strict then
              Run.fail e
            else
              filterDocuments r strict condition rest
          else
            Run.fail e

/-! ## Order -/

/-- The order of two values under one sort key. A missing value comes
first in either direction. -/
def compareUnder (direction : SortDirection) : Value → Value → Except Overflow Ordering
  | none, none => .ok .eq
  | none, some _ => .ok .lt
  | some _, none => .ok .gt
  | v, w =>
      match direction with
      | .ascending => compareForSort v w
      | .descending => (compareForSort v w).map Ordering.swap

/-- The order of two documents: the first sort key that tells them apart
decides. -/
def compareDocuments (keys : List SortKey) (a b : Json) : Except Overflow Ordering :=
  match keys with
  | [] => .ok .eq
  | key :: rest => do
      match ← compareUnder key.direction (a.resolve key.segments) (b.resolve key.segments) with
      | .eq => compareDocuments rest a b
      | o => return o

/-- The documents in the order of the sort keys. -/
def orderDocuments (keys : List SortKey) (documents : List Json) : Except Overflow (List Json) :=
  if keys.isEmpty then
    .ok documents
  else
    Sorting.sort (fun a b => return (← compareDocuments keys a b) == .lt) documents

/-! ## Project -/

/-- Writes the value of a selected path into the result, if the document
has it. -/
def projectItem (document : Json) (result : Fields) (item : SelectItem) :
    Except PathError Fields :=
  match document.resolve item.segments with
  | none => .ok result
  | some v => Fields.set result item.output v

/-- The selected part of a document, which is an object; its `id` comes
along, in front. -/
def projectDocument (items : List SelectItem) (document : Json) : Except PathError Json := do
  let start : Fields :=
    match document.field? "id" with
    | some v => [("id", v)]
    | none => []
  let fields ← items.foldlM (projectItem document) start
  return .obj fields

/-- The selected parts of the documents. -/
def projectDocuments (projection : Projection) (documents : List Json) :
    Except PathError (List Json) :=
  match projection with
  | .everything => .ok documents
  | .items items => documents.mapM (projectDocument items)

/-! ## The stages -/

/-- The first documents, as many as the limit says. -/
def limitDocuments (limit : Option Nat) (documents : List Json) : List Json :=
  match limit with
  | none => documents
  | some n => documents.take n

/-- The result of a query on a list of documents. -/
def Query.execute (r : Registry) (strict : Bool) (q : Query) (documents : List Json) :
    Noticed ExecutionError (List Json) := do
  let filtered ←
    match q.where? with
    | none => pure documents
    | some condition => (filterDocuments r strict condition documents).mapError .evaluation
  Run.notify (.stage .filter documents.length filtered.length)
  let ordered ← (Run.ofExcept (orderDocuments q.orderBy filtered)).mapError .ordering
  Run.notify (.stage .order filtered.length ordered.length)
  let limited := limitDocuments q.limit ordered
  Run.notify (.stage .limit ordered.length limited.length)
  let projected ← (Run.ofExcept (projectDocuments q.projection limited)).mapError .projection
  Run.notify (.stage .project limited.length projected.length)
  pure projected

/-! ## Parsing with notices -/

/-- Parses a query text. A refused text is reported; refused parameters
are not. -/
def parseNoticed (r : Registry) (text : String) (given : Json) : Noticed QueryRefusal Query := do
  Run.notify (.parseStart text)
  match Query.parse r text given with
  | .ok q =>
      Run.notify (.parseEnd q)
      pure q
  | .error (.text e) =>
      Run.notify (.parseError text e)
      Run.fail (.text e)
  | .error e => Run.fail e

end DocStore
