import DocStore.Json.Display
import DocStore.Log.Record
import DocStore.Number.Fixed
import DocStore.Query.Notice

/-!
# The journal of a query

The notices of the query engine as log records. Each notice gives one
record of the query logger (`Notice.record`); the parser and the
executor add records of their own (`queryRecords`), which name the query
text and, at the end, the number of documents and of results.

Times come from outside: `elapsed` is what the stopwatch shows, in
milliseconds.
-/

namespace DocStore

open Log

namespace LoggerName

def query : String := "mockcosmos.query"
def parser : String := "mockcosmos.query.parser"
def executor : String := "mockcosmos.query.executor"
def pagination : String := "mockcosmos.query.pagination"

end LoggerName

/-- The id of a document as it stands in messages and fields; null if
there is none. -/
def documentId (document : Json) : Json :=
  (document.field? "id").getD .null

/-- A record of the query logger. -/
def queryRecord (level : Int) (text event : String) (more : Fields) : Record :=
  ⟨LoggerName.query, level, .text text, ("event", .str event) :: more⟩

/-- What the query logger writes about a notice. -/
def Notice.record (elapsed : Double) : Notice → Record
  | .parseStart text =>
      queryRecord debug "Parsing query" "parse_start" [("query_text", .str text)]
  | .parseEnd q =>
      queryRecord info ("Query parsed in " ++ elapsed.fixed Json.displayNames 2 ++ "ms") "parse_end"
        [("query_text", .str q.text), ("duration_ms", .float elapsed), ("query", .obj q.describe)]
  | .parseError text e =>
      queryRecord warning ("Query parse failed: " ++ e.report.text) "parse_error"
        [("query_text", .str text), ("error_type", .str e.label),
         ("error_details", e.report.details)]
  | .comparison op l r v =>
      queryRecord debug
        ("Compared " ++ l.display ++ " " ++ op.symbol ++ " " ++ r.display ++ " -> " ++ v.display)
        "comparison" [("operator", .str op.symbol)]
  | .predicate document matched none =>
      queryRecord debug
        ("Document " ++ (documentId document).display ++
          (if matched then " matched" else " did not match"))
        "predicate" [("document_id", documentId document), ("matched", .bool matched)]
  | .predicate document _ (some e) =>
      queryRecord warning
        ("Document " ++ (documentId document).display ++ " excluded: " ++ e.report.text)
        "predicate_error" [("document_id", documentId document), ("error_type", .str e.label)]
  | .stage s input output =>
      queryRecord debug
        ("Stage " ++ s.name ++ ": " ++ natText input ++ " -> " ++ natText output ++ " documents")
        "stage"
        [("stage", .str s.name), ("input_count", .int input), ("output_count", .int output)]
  | .page offset returned hasMore =>
      queryRecord info
        ("Page served: " ++ natText returned ++ " documents from offset " ++ natText offset) "page"
        [("offset", .int offset), ("returned", .int returned), ("has_more", .bool hasMore)]

/-- A record of a template with arguments. -/
def templateRecord (logger template : String) (arguments : List Json) : Record :=
  ⟨logger, debug, ⟨.str template, arguments⟩, []⟩

/-- What the parser and the executor themselves write about a notice:
`text` is the query text and `count` the number of documents. -/
def engineRecords (elapsed : Double) (strict : Bool) (text : String) (count : Nat) :
    Notice → List Record
  | .parseError text e =>
      [templateRecord LoggerName.parser "Failed to parse query %r: %s"
        [.str text, .str e.report.message]]
  | .parseEnd q =>
      [templateRecord LoggerName.parser "Parsed query %r in %.3f ms"
        [.str q.text, .float elapsed]]
  | .predicate document _ (some e) =>
      if strict then []
      else
        [templateRecord LoggerName.executor "Excluding document %r: %s"
          [documentId document, .str e.message]]
  | .stage .project _ results =>
      [templateRecord LoggerName.executor "Executed %r over %d documents: %d results in %.3f ms"
        [.str text, .int count, .int results, .float elapsed]]
  | _ => []

/-- The parser reports before the query logger does, the executor after
it. -/
def Notice.engineFirst : Notice → Bool
  | .parseError .. | .parseEnd _ => true
  | _ => false

/-- The query text that a notice makes known. -/
def Notice.queryText (known : String) : Notice → String
  | .parseStart text => text
  | _ => known

/-- The number of documents that a notice makes known. -/
def Notice.documentCount (known : Nat) : Notice → Nat
  | .stage .filter input _ => input
  | _ => known

/-- The records of a run of notices. -/
def queryRecords (elapsed : Double) (strict : Bool) (text : String) (count : Nat) :
    List Notice → List Record
  | [] => []
  | n :: rest =>
      let text := n.queryText text
      let count := n.documentCount count
      let own := engineRecords elapsed strict text count n
      let record := n.record elapsed
      (if n.engineFirst then own ++ [record] else record :: own) ++
        queryRecords elapsed strict text count rest

end DocStore
