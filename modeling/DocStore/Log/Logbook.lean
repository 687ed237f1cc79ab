import DocStore.Log.Line
import DocStore.Text.FilePath
import DocStore.Text.Split

/-!
# The logbook

A logbook takes records and writes them to its sinks. Loggers form a
tree by the points in their names: a logger without a level of its own
goes by the nearest one above it that has one, and in the end by the
root. A record below the level of its logger is dropped
(`Logbook.takes`).

Each sink that writes removes secrets from the record and passes it on
as it then is. A record that has no line is passed on and not written.
-/

namespace DocStore.Log

/-- Where records go: nowhere, to the console or to a file. -/
inductive Sink where
  | silent
  | console (format : LineFormat)
  | file (format : LineFormat) (path : String)
deriving DecidableEq

/-- Levels, sinks, and what has been written. -/
structure Logbook where
  rootLevel : Int
  levels : Table Int
  sinks : List Sink
  console : List String
  files : Table (List String)
  correlation : Option String

namespace Logbook

/-- A logbook at the start: it takes warnings and writes nothing. -/
def new : Logbook := ⟨warning, [], [.silent], [], [], none⟩

/-! ## Levels -/

/-- The name of a logger; no name at all stands for the root. -/
def nameOf (logger : String) : String :=
  if logger.isEmpty then rootLogger else logger

/-- The part of a name before its last point; none if it is empty or
there is no point. -/
def before? (name : List Char) : Option (List Char) :=
  let above := (name.reverse.dropWhile (· ≠ '.')).drop 1
  if above.isEmpty then none else some above.reverse

theorem before?_length {name above : List Char} (h : before? name = some above) :
    above.length < name.length := by
  have := (List.dropWhile_suffix (fun c : Char => decide (c ≠ '.')) (l := name.reverse)).length_le
  simp only [before?, List.length_reverse] at h this
  split at h
  · cases h
  · rename_i hne
    obtain rfl := Option.some.inj h
    rw [List.isEmpty_iff, ← List.length_eq_zero_iff] at hne
    simp only [List.length_drop, List.length_reverse] at *
    omega

/-- The names above a name, the nearest first. A point right before the
point that ended a name does not end another. -/
def namesAbove (name : List Char) : List (List Char) :=
  match _h : before? name with
  | none => []
  | some above => above :: namesAbove above.dropLast
termination_by name.length
decreasing_by
  have := before?_length _h
  simp only [List.length_dropLast]
  omega

/-- The loggers above a logger, the nearest first, without the root. -/
def ancestors (logger : String) : List String :=
  (namesAbove logger.toList).map String.ofList

/-- The level of a logger itself; zero if it has none. -/
def ownLevel (b : Logbook) (logger : String) : Int :=
  if logger = rootLogger then b.rootLevel else (b.levels.get? logger).getD 0

/-- The level that a logger goes by. -/
def level (b : Logbook) (logger : String) : Int :=
  (((logger :: ancestors logger).map b.ownLevel).find? (· ≠ 0)).getD b.rootLevel

/-- Gives a logger a level of its own. -/
def setLevel (b : Logbook) (logger : String) (level : Int) : Logbook :=
  if nameOf logger = rootLogger then { b with rootLevel := level }
  else { b with levels := b.levels.put logger level }

/-- The record is not below the level of its logger. -/
def takes (b : Logbook) (r : Record) : Bool :=
  0 < r.level && b.level r.logger ≤ r.level

/-! ## Writing -/

/-- Writes a line to the console. -/
def writeConsole (b : Logbook) (line : String) : Logbook :=
  { b with console := b.console ++ [line] }

/-- Writes a line to the end of a file. -/
def writeFile (b : Logbook) (path line : String) : Logbook :=
  { b with files := b.files.put path ((b.files.get? path).getD [] ++ [line]) }

/-- A sink writes a record as it is; a record without a line is
dropped. -/
def writeOne (created : Instant) (r : Record) (b : Logbook) (sink : Sink) : Logbook :=
  match sink with
  | .silent => b
  | .console format =>
      match writtenLine format created b.correlation r with
      | .ok line => b.writeConsole line
      | .error _ => b
  | .file format path =>
      match writtenLine format created b.correlation r with
      | .ok line => b.writeFile path line
      | .error _ => b

/-- What a sink passes on of a record. -/
def passOn : Sink → Record → Record
  | .silent, r => r
  | .console _, r | .file _ _, r => r.redacted

/-- Writes a record to sinks. -/
def writeTo (created : Instant) (r : Record) (b : Logbook) : List Sink → Logbook
  | [] => b
  | sink :: rest =>
      let r := passOn sink r
      writeTo created r (b.writeOne created r sink) rest

/-- Takes a record and writes it, if it is not below the level of its
logger; what is below the debug level is never written. -/
def add (created : Instant) (b : Logbook) (r : Record) : Logbook :=
  let r := { r with logger := nameOf r.logger }
  if b.takes r && debug ≤ r.level then writeTo created r b b.sinks else b

/-- Takes records one after the other. -/
def addAll (created : Instant) (b : Logbook) (records : List Record) : Logbook :=
  records.foldl (add created) b

/-- Takes records under a correlation id of their own. -/
def addUnder (created : Instant) (correlation : String) (b : Logbook) (records : List Record) :
    Logbook :=
  { addAll created { b with correlation := some correlation } records with
    correlation := b.correlation }

/-- The lines of a file; none if it does not exist. -/
def read? (b : Logbook) (path : String) : Option (List String) :=
  b.files.get? (FilePath.normalize path)

end Logbook

end DocStore.Log
