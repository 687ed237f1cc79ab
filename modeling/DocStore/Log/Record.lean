import DocStore.Json.Basic
import DocStore.Log.Level
import DocStore.Log.Message

/-!
# Log records

A record is what one event puts into the log: the logger that takes it,
a level, a message and further fields. Redaction leaves the further
fields as they are.
-/

namespace DocStore.Log

/-- What one event puts into the log. -/
structure Record where
  logger : String
  level : Int
  message : Message
  extra : Fields

namespace Record

/-- The record without the secrets of its message. -/
def redacted (r : Record) : Record :=
  { r with message := r.message.redacted }

/-- A record of a plain text without further fields. -/
def plain (logger : String) (level : Int) (text : String) : Record :=
  ⟨logger, level, .text text, []⟩

/-- A record of a message with a context, which is left out if it is
empty. -/
def withContext (logger : String) (level : Int) (message : Message) (context : Fields) : Record :=
  ⟨logger, level, message, if context.isEmpty then [] else [("context", .obj context)]⟩

/-- The parts of a record have names that no field of a context can
have. -/
def isContext (fields : Fields) : Bool :=
  ["logger", "level", "message"].all fun name => !fields.has name

end Record

/-! ## Loggers -/

/-- The logger above all others. -/
def rootLogger : String := "root"

end DocStore.Log
