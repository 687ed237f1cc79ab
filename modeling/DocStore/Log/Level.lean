import DocStore.Number.Notation
import DocStore.Table
import DocStore.Text.Case

/-!
# Log levels

A level is an integer; the greater, the more urgent. Six levels have
names, two of them a second name that is understood but never written.
-/

namespace DocStore.Log

/-- The levels that the library itself uses. -/
def debug : Int := 10
def info : Int := 20
def warning : Int := 30
def error : Int := 40

/-- The names that are understood. -/
def levelsByName : Table Int :=
  [("CRITICAL", 50), ("FATAL", 50), ("ERROR", 40), ("WARNING", 30), ("WARN", 30), ("INFO", 20),
   ("DEBUG", 10), ("NOTSET", 0)]

/-- The level of a name in any case. -/
def levelOf? (name : String) : Option Int :=
  levelsByName.get? name.upperCase

/-- The name of a level as it is written: of two names the first. -/
def levelName (level : Int) : String :=
  match levelsByName.find? (·.2 == level) with
  | some (name, _) => name
  | none => "Level " ++ intText level

end DocStore.Log
