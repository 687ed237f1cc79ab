import DocStore.Json.Writer
import DocStore.Log.Instant
import DocStore.Log.Record
import DocStore.Text.NumeralError

/-!
# Log lines

A record is written as an object in one line of JSON, or as a line for
human readers. In the object the time, the level, the logger, the
message and the correlation id come first, and no further field can take
their places. A record has no line if its instant cannot be written or
its message cannot be shown, or if JSON would have to show an integer of
too many digits (`writtenLine`).
-/

namespace DocStore.Log

/-- How records are written. -/
inductive LineFormat where
  | json
  | text
deriving DecidableEq

/-- The format of a name: JSON by its exact name, else text. -/
def LineFormat.ofName (name : String) : LineFormat :=
  if name = "json" then json else text

/-- The correlation id, if it is set and not empty. -/
def shownCorrelation (correlation : Option String) : Option String :=
  correlation.filter fun s => !s.isEmpty

/-- Names that belong to the records themselves; further fields of these
names are not written. -/
def reservedNames : List String :=
  ["name", "msg", "args", "levelname", "levelno", "pathname", "filename", "module", "exc_info",
   "exc_text", "stack_info", "lineno", "funcName", "created", "msecs", "relativeCreated", "thread",
   "threadName", "processName", "process", "message", "asctime", "taskName"]

/-- The fields that come first, given the message as it is read. -/
def leadFields (created : Instant) (correlation : Option String) (message : String) (r : Record) :
    Fields :=
  [("timestamp", .str (Clock.iso created)), ("level", .str (levelName r.level)),
    ("module", .str r.logger), ("message", .str message)] ++
    ((shownCorrelation correlation).map fun s => ("correlation_id", .str s)).toList

/-- Adds a further field, unless its name is reserved or taken. -/
def addField (fields : Fields) (field : String × Json) : Fields :=
  if reservedNames.contains field.1 || fields.has field.1 then fields
  else fields ++ [field]

/-- The record as an object. -/
def jsonFields (created : Instant) (correlation : Option String) (message : String) (r : Record) :
    Fields :=
  r.extra.foldl addField (leadFields created correlation message r)

/-- The record as a line of JSON. -/
def jsonLine (created : Instant) (correlation : Option String) (message : String) (r : Record) :
    String :=
  (Json.obj (jsonFields created correlation message r)).write .spacedAscii

/-- The record as a line for human readers. -/
def textLine (created : Instant) (correlation : Option String) (message : String) (r : Record) :
    String :=
  let suffix :=
    match shownCorrelation correlation with
    | some s => " [correlation_id=" ++ s ++ "]"
    | none => ""
  Clock.plain created ++ " [" ++ levelName r.level ++ "] " ++ r.logger ++ ": " ++ message ++ suffix

/-- Why a record has no line. -/
inductive LineFault where
  | instant (e : Clock.Fault)
  | wording (e : MessageFault)
  | unshowable
deriving DecidableEq

def LineFault.message : LineFault → String
  | instant e => e.message
  | wording e => e.message
  | unshowable => Text.unshowableMessage

/-- Ends in a fault of the clock, if there is one. -/
def checkInstant : Option Clock.Fault → Except LineFault Unit
  | some e => .error (.instant e)
  | none => .ok ()

/-- The record as a line of a format, if it can be written. In JSON the
instant is written before the message, in text behind it; further fields
are in JSON alone. -/
def writtenLine (format : LineFormat) (created : Instant) (correlation : Option String)
    (r : Record) : Except LineFault String :=
  match format with
  | .json => do
      checkInstant (Clock.isoFault? created)
      let message ← r.message.render.mapError .wording
      if (Json.obj (jsonFields created correlation message r)).isShowable then
        return jsonLine created correlation message r
      else
        throw .unshowable
  | .text => do
      let message ← r.message.render.mapError .wording
      checkInstant (Clock.plainFault? created)
      return textLine created correlation message r

end DocStore.Log
