import DocStore.Database.Journal
import DocStore.Query.Listing
import DocStore.Query.Request
import DocStore.Store.Description
import DocStore.Proofs.Codec.RoundTrip
import DocStore.Proofs.Database.Call
import DocStore.Proofs.Database.Dictionaries
import DocStore.Proofs.Database.Growth
import DocStore.Proofs.Database.Ledger
import DocStore.Proofs.Database.Paging
import DocStore.Proofs.Database.Refinement
import DocStore.Proofs.Json.Ascii
import DocStore.Proofs.Json.Equality
import DocStore.Proofs.Json.Order
import DocStore.Proofs.Json.Overflow
import DocStore.Proofs.Json.Path
import DocStore.Proofs.Json.Reordered
import DocStore.Proofs.Json.Restriction
import DocStore.Proofs.Json.RoundTrip
import DocStore.Proofs.Json.Showable
import DocStore.Proofs.Log.Idempotence
import DocStore.Proofs.Log.Lead
import DocStore.Proofs.Log.Line
import DocStore.Proofs.Log.Redaction
import DocStore.Proofs.Number.Digits
import DocStore.Proofs.Number.Rounding
import DocStore.Proofs.Query.Acceptance
import DocStore.Proofs.Query.Binding
import DocStore.Proofs.Query.Comparison
import DocStore.Proofs.Query.Conjunction
import DocStore.Proofs.Query.Continuation
import DocStore.Proofs.Query.Culprit
import DocStore.Proofs.Query.Decidable
import DocStore.Proofs.Query.Derivation
import DocStore.Proofs.Query.Evaluation
import DocStore.Proofs.Query.Execution
import DocStore.Proofs.Query.Grammar
import DocStore.Proofs.Query.Grouping
import DocStore.Proofs.Query.Layout
import DocStore.Proofs.Query.Leading
import DocStore.Proofs.Query.Lenient
import DocStore.Proofs.Query.Lexeme
import DocStore.Proofs.Query.Literal
import DocStore.Proofs.Query.Metrics
import DocStore.Proofs.Query.Ordering
import DocStore.Proofs.Query.Paging
import DocStore.Proofs.Query.ParsePrint
import DocStore.Proofs.Query.Placement
import DocStore.Proofs.Query.Precedence
import DocStore.Proofs.Query.PrintedExpr
import DocStore.Proofs.Query.PrintedQuery
import DocStore.Proofs.Query.Printer
import DocStore.Proofs.Query.Projection
import DocStore.Proofs.Query.Protocol
import DocStore.Proofs.Query.Reading
import DocStore.Proofs.Query.Render
import DocStore.Proofs.Query.Respelling
import DocStore.Proofs.Query.Runnable
import DocStore.Proofs.Query.Safety
import DocStore.Proofs.Query.Scanning
import DocStore.Proofs.Query.Search
import DocStore.Proofs.Query.SourceAlias
import DocStore.Proofs.Query.Spelling
import DocStore.Proofs.Query.Standalone
import DocStore.Proofs.Query.Strictness
import DocStore.Proofs.Query.Unknown
import DocStore.Proofs.Query.WrittenOut
import DocStore.Proofs.Run
import DocStore.Proofs.Settings.Overlay
import DocStore.Proofs.Settings.Precedence
import DocStore.Proofs.Settings.Reloading
import DocStore.Proofs.Sorting.Merging
import DocStore.Proofs.Sorting.Permutation
import DocStore.Proofs.Sorting.Rearrangement
import DocStore.Proofs.Sorting.Stability
import DocStore.Proofs.Store.Outcome
import DocStore.Proofs.Table
import DocStore.Proofs.Text.FilePath
import DocStore.Proofs.Text.Order
