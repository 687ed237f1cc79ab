import DocStore.Query.Continuation
import DocStore.Query.Execution

/-!
# Pages of results

A page request runs the whole query and answers a slice of its result.
The slice starts where the continuation token says, or at the beginning
if the token cannot be read; a token of another query text or page size
is refused. The answer carries a token if results are left behind the
slice.

Query texts and the texts in documents are sequences of Unicode scalar
values, and so every query text has an encoding in a token. A surrogate
on its own, which has none, is no part of a text here.
-/

namespace DocStore

/-- Why a token is refused. -/
inductive TokenError where
  | otherQuery
  | otherPageSize (issued requested : Int)
deriving DecidableEq

namespace TokenError

def message : TokenError → String
  | otherQuery => "Continuation token was issued for a different query"
  | otherPageSize issued requested =>
      "Continuation token was issued for page size " ++ intText issued ++ ", not " ++
        intText requested

def report (e : TokenError) : ErrorReport :=
  .plain "InvalidContinuationTokenError" e.message

end TokenError

/-- Why a page request has no answer. -/
inductive PageError where
  | pageSize (given : Json)
  | token (e : TokenError)
  | refused (e : QueryRefusal)
  | execution (e : ExecutionError)

/-- The message about a page size that is no positive integer. -/
def pageSizeMessage (given : Json) : String :=
  "page_size must be a positive integer, got " ++ given.display

/-- One page of results. -/
structure Page where
  documents : List Json
  next? : Option String

/-- Results are left behind the page. -/
def Page.hasMore (p : Page) : Bool :=
  p.next?.isSome

/-- A page size that is a positive integer. -/
def positiveSize? : Json → Option Nat
  | .int (.ofNat (n + 1)) => some (n + 1)
  | _ => none

/-- Where a page starts. -/
def startOffset (text : String) (size : Nat) (token : Option String) : Except TokenError Nat :=
  match token.bind ContinuationToken.decode with
  | none => .ok 0
  | some t =>
      if t.fingerprint ≠ fingerprint text then
        .error .otherQuery
      else if t.pageSize ≠ size then
        .error (.otherPageSize t.pageSize size)
      else
        .ok t.offset.toNat

/-- The slice of a result that makes a page. -/
def pageOf (text : String) (size offset : Nat) (results : List Json) : Page :=
  let stop := offset + size
  { documents := (results.drop offset).take size
    next? :=
      if stop < results.length then some (ContinuationToken.mk stop (fingerprint text) size).encode
      else none }

/-- Results are left behind a page exactly if it ends before they do. -/
theorem hasMore_pageOf (text : String) (size offset : Nat) (results : List Json) :
    (pageOf text size offset results).hasMore = true ↔ offset + size < results.length := by
  simp only [pageOf, Page.hasMore]
  split <;> simp_all

/-- Parses and executes a query text. -/
def runQuery (r : Registry) (strict : Bool) (text : String) (parameters : Json)
    (documents : List Json) : Noticed PageError (List Json) := do
  let q ← (parseNoticed r text parameters).mapError .refused
  (q.execute r strict documents).mapError .execution

/-- Answers a page request. -/
def servePage (r : Registry) (strict : Bool) (text : String) (documents : List Json)
    (pageSize : Json) (token : Option String) (parameters : Json) : Noticed PageError Page := do
  match positiveSize? pageSize with
  | none => Run.fail (.pageSize pageSize)
  | some size =>
      let offset ← Run.ofExcept ((startOffset text size token).mapError .token)
      let results ← runQuery r strict text parameters documents
      let page := pageOf text size offset results
      Run.notify (.page offset page.documents.length page.hasMore)
      pure page

end DocStore
