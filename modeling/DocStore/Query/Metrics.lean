import DocStore.Number.Notation
import DocStore.Query.Notice
import DocStore.Json.Writer
import DocStore.Text.Order

/-!
# Query metrics

Counters and histograms of the query engine, updated by each notice. A
histogram keeps what it observed, so its buckets, count and sum are
counts and sums of one list. A labelled counter or histogram shows
nothing before it is first used; the others show a zero.

Parse times come from outside: `elapsed` is what the stopwatch shows, in
milliseconds. The clock decides them, so only their number is shown.
-/

namespace DocStore

/-- What has been counted and observed so far; `parseTimes` are in
seconds. -/
structure QueryMetrics where
  queriesParsed : Nat
  parseErrors : Table Nat
  parseTimes : List Double
  documentsEvaluated : Table Nat
  evaluationErrors : Table Nat
  stageDocuments : Table (List Nat)
  pagesServed : Nat

namespace QueryMetrics

def empty : QueryMetrics := ⟨0, [], [], [], [], [], 0⟩

/-- One more at a label. -/
def increment (t : Table Nat) (label : String) : Table Nat :=
  t.put label ((t.get? label).getD 0 + 1)

/-- One more observation at a label. -/
def observe (t : Table (List Nat)) (label : String) (n : Nat) : Table (List Nat) :=
  t.put label ((t.get? label).getD [] ++ [n])

/-- The texts of the truth values as labels. -/
def truthLabel (b : Bool) : String :=
  if b then "true" else "false"

/-- The metrics after a notice. -/
def record (elapsed : Double) (m : QueryMetrics) : Notice → QueryMetrics
  | .parseEnd _ =>
      { m with
        queriesParsed := m.queriesParsed + 1
        parseTimes := m.parseTimes ++ [elapsed.overNat 1000] }
  | .parseError _ e => { m with parseErrors := increment m.parseErrors e.label }
  | .predicate _ matched error =>
      let evaluated := increment m.documentsEvaluated (truthLabel matched)
      match error with
      | none => { m with documentsEvaluated := evaluated }
      | some e =>
          { m with
            documentsEvaluated := evaluated
            evaluationErrors := increment m.evaluationErrors e.label }
  | .stage s _ output => { m with stageDocuments := observe m.stageDocuments s.name output }
  | .page .. => { m with pagesServed := m.pagesServed + 1 }
  | .parseStart _ | .comparison .. => m

/-- The metrics after a run of notices. -/
def recordAll (elapsed : Double) (m : QueryMetrics) (notices : List Notice) : QueryMetrics :=
  notices.foldl (record elapsed) m

/-! ## Samples -/

/-- One number that is shown: a name, labels in the order of their
names, and a value. -/
structure Sample where
  name : String
  labels : List (String × String)
  value : Nat
deriving DecidableEq

namespace Sample

/-- The labels as text. -/
def labelText (s : Sample) : String :=
  ",".intercalate (s.labels.map fun (k, v) => k ++ "=" ++ v)

/-- The value as text, which is that of a double. -/
def valueText (s : Sample) : String :=
  (Double.ofNat s.value).render Json.specialNames

end Sample

/-- The upper bounds of the histogram of stage sizes. -/
def stageBounds : List Nat :=
  [0, 1, 10, 100, 1000, 10000]

/-- The samples of a labelled counter. -/
def counterSamples (name label : String) (t : Table Nat) : List Sample :=
  t.map fun (value, n) => ⟨name, [(label, value)], n⟩

/-- The samples of the histogram of one stage: for each bound the number
of observations up to it, the number of all observations, and their
sum. -/
def stageSamples (name stage : String) (observations : List Nat) : List Sample :=
  stageBounds.map (fun bound =>
    ⟨name ++ "_bucket", [("le", (Double.ofNat bound).render Json.specialNames), ("stage", stage)],
      observations.countP (· ≤ bound)⟩) ++
  [⟨name ++ "_bucket", [("le", "+Inf"), ("stage", stage)], observations.length⟩,
   ⟨name ++ "_count", [("stage", stage)], observations.length⟩,
   ⟨name ++ "_sum", [("stage", stage)], observations.foldl (· + ·) 0⟩]

/-- All samples, in the order of names, then labels. -/
def samples (space : String) (m : QueryMetrics) : List Sample :=
  let all :=
    [⟨space ++ "_queries_parsed_total", [], m.queriesParsed⟩] ++
    counterSamples (space ++ "_parse_errors_total") "error_type" m.parseErrors ++
    [⟨space ++ "_parse_duration_seconds_count", [], m.parseTimes.length⟩] ++
    counterSamples (space ++ "_documents_evaluated_total") "matched" m.documentsEvaluated ++
    counterSamples (space ++ "_evaluation_errors_total") "error_type" m.evaluationErrors ++
    m.stageDocuments.flatMap (fun (stage, ns) =>
      stageSamples (space ++ "_stage_documents") stage ns) ++
    [⟨space ++ "_pages_served_total", [], m.pagesServed⟩]
  Text.sortByKey (·.name) (Text.sortByKey Sample.labelText all)

/-! ## Help -/

/-- The metrics in the order of registration: name, what it counts, and
its type. -/
def descriptions : List (String × String × String) :=
  [("queries_parsed_total", "Total queries parsed successfully", "counter"),
   ("parse_errors_total", "Total queries rejected by the parser", "counter"),
   ("parse_duration_seconds", "Query parse duration in seconds", "histogram"),
   ("documents_evaluated_total", "Documents tested against a WHERE clause", "counter"),
   ("evaluation_errors_total", "Documents excluded because evaluation raised", "counter"),
   ("stage_documents", "Documents produced by each pipeline stage", "histogram"),
   ("pages_served_total", "Total result pages served", "counter")]

/-- The lines that explain the metrics. -/
def helpLines (space : String) : List String :=
  descriptions.flatMap fun (name, text, type) =>
    ["# HELP " ++ space ++ "_" ++ name ++ " " ++ text,
     "# TYPE " ++ space ++ "_" ++ name ++ " " ++ type]

end QueryMetrics

end DocStore
