import DocStore.Database.Basic
import DocStore.Query.Journal
import DocStore.Settings.Journal

/-!
# The journal of a database

What a database puts into the log: changes of its store, its queries,
and its opening. The records of a query carry a correlation id of their
own.

`Database.openFrom` loads settings, sets up the log as they say, and
opens an empty database.
-/

namespace DocStore

open Log

/-- The logger of the database. -/
def LoggerName.database : String := "mockcosmos.cosmosdb.backend"

/-! ## Records -/

/-- The record of a change of the store; `resourceId` is that of a new
container. -/
def StoreNotice.record (resourceId : String) : StoreNotice → Record
  | .created container =>
      .withContext LoggerName.database info (.text ("Created container: " ++ container))
        [("container_id", .str container), ("rid", .str resourceId)]
  | .added id container =>
      .plain LoggerName.database debug
        ("Added document " ++ id.text.inQuotes ++ " to container " ++ container)

namespace Database

/-- The record of a token that cannot be read and is not used. -/
def ignoredToken (token : Option String) : List Record :=
  match token.filter fun s => !s.isEmpty && (ContinuationToken.decode s).isNone with
  | some s =>
      [templateRecord LoggerName.pagination "Ignoring undecodable continuation token %r" [.str s]]
  | none => []

/-- The records of a query, given its notices. -/
def queryRecords (db : Database) (elapsed : Double) (notices : List Notice) : List Record :=
  DocStore.queryRecords elapsed db.settings.query.strict "" 0 notices

/-- The records of a page request, given its notices. A request that is
refused before its text is looked at has none. -/
def pageRecords (db : Database) (elapsed : Double) (token : Option String)
    (notices : List Notice) : List Record :=
  if notices.isEmpty then []
  else ignoredToken token ++ db.queryRecords elapsed notices

/-- The record of the opening of a database. -/
def openedRecord (settings : Settings) : Record :=
  .plain LoggerName.database info
    ("MockCosmos v" ++ settings.version ++ " initialized (strict_mode=" ++
      (Json.bool settings.query.strict).display ++ ")")

/-! ## Opening -/

/-- Why a database cannot be opened. -/
inductive OpenError where
  | load (e : LoadError)
  | setup (e : SetupError)

/-- Opens a database with settings from the surroundings and
overrides. -/
def openFrom (created : Instant) (help : Validation.Fault → String) (s : Surroundings)
    (path : Option String) (overrides : Json) (log : Logbook) :
    Except OpenError Database × Logbook :=
  let loading := (SettingsLoader.new.load s path overrides).2
  let log := log.addAll created (loading.notices.map (LoadNotice.record help))
  match loading.outcome with
  | .error e => (.error (.load e), log)
  | .ok settings =>
      match log.setUp created settings.logging.setup with
      | (.error e, log) => (.error (.setup e), log)
      | (.ok (), log) => (.ok (.ofSettings settings), log.add created (openedRecord settings))

end Database

end DocStore
