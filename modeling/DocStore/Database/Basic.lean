import DocStore.Query.Metrics
import DocStore.Query.Paging
import DocStore.Settings.Schema
import DocStore.Store.Basic

/-!
# The database

A database is a store under settings. Queries read the store and change
nothing: `query` gives all results, `queryPage` one page of them, of a
size that the settings bound.
-/

namespace DocStore

/-- How many results a page has if `requested` is asked for: nothing
asked for means the default. -/
def QuerySettings.pageSize? (s : QuerySettings) (requested : Json) : Option Nat :=
  match requested with
  | .null => some (min s.defaultPageSize s.maxPageSize)
  | v => (positiveSize? v).map (min · s.maxPageSize)

/-- A store under settings. -/
structure Database where
  settings : Settings
  store : Store

/-- Why a database gives no results. -/
inductive DatabaseError where
  | store (e : StoreError)
  | page (e : PageError)

namespace Database

/-- An empty database. -/
def ofSettings (settings : Settings) : Database := ⟨settings, .empty⟩

/-- The documents of a container, for a query. -/
def documents (db : Database) (container : Json) : Except DatabaseError (List Json) :=
  match db.store.locate container with
  | .ok c => .ok c.contents
  | .error e => .error (.store e)

/-- All results of a query on a container. -/
def query (db : Database) (container : Json) (text : String) (parameters : Json) :
    Noticed DatabaseError (List Json) := do
  let documents ← Run.ofExcept (db.documents container)
  (runQuery .standard db.settings.query.strict text parameters documents).mapError .page

/-- One page of the results of a query on a container. -/
def queryPage (db : Database) (container : Json) (text : String) (size : Json)
    (token : Option String) (parameters : Json) : Noticed DatabaseError Page :=
  match db.settings.query.pageSize? size with
  | none => Run.fail (.store (.badRequest (.itemCount size)))
  | some size => do
      let documents ← Run.ofExcept (db.documents container)
      (servePage .standard db.settings.query.strict text documents (.int size) token
        parameters).mapError .page

/-- What the metrics show after calls, each with what its stopwatch
showed and its notices; nothing, if no metrics are kept. -/
def samples (db : Database) (calls : List (Double × List Notice)) : List QueryMetrics.Sample :=
  if db.settings.metrics.enabled then
    let m := calls.foldl (fun m (elapsed, notices) => m.recordAll elapsed notices) .empty
    QueryMetrics.samples db.settings.metrics.space m
  else
    []

end Database

end DocStore
