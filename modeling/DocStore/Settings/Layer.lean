import DocStore.Json.Basic
import DocStore.Text.Case
import DocStore.Text.NumeralError
import DocStore.Validation.Given

/-!
# Layers of settings

Settings come from three layers: a file, the environment and explicit
overrides. A later layer is laid over an earlier one entry by entry
(`Entries.overlay`): maps are merged, anything else replaces what was
there.
-/

namespace DocStore

/-! ## Laying one layer over another -/

namespace Validation

mutual

/-- A value laid over what stands in its place. -/
def Given.overlay (below : Option Given) : Given → Given
  | .map entries =>
      match below with
      | some (.map base) => .map (Entries.overlay base entries)
      | _ => .map entries
  | v => v

/-- Entries laid over entries. -/
def Entries.overlay (base : Entries) : List (Key × Given) → Entries
  | [] => base
  | (key, v) :: rest => Entries.overlay (base.put key (Given.overlay (base.get? key) v)) rest

end

end Validation

/-! ## The environment -/

/-- What the names of all environment variables begin with. -/
def environmentPrefix : String := "MOCKCOSMOS_"

/-- The value of an environment variable, unless it is missing or
empty. -/
def valueSet? (environment : Table String) (name : String) : Option String :=
  (environment.get? (environmentPrefix ++ name)).filter fun s => !s.isEmpty

/-- A truth value in the environment: three words mean true, all else
false. -/
def environmentTruth (s : String) : Bool :=
  ["true", "1", "yes"].contains s.lowerCase

/-- An integer in the environment, if it is set. -/
def integerSet? (environment : Table String) (name : String) :
    Except Text.NumeralError (Option Json) :=
  match valueSet? environment name with
  | none => .ok none
  | some s => (Text.integer s.toList).map fun n => some (.int n)

/-- A group of the fields that are set; none if nothing is set. -/
def group? (name : String) (fields : List (String × Option Json)) : Option (String × Json) :=
  match fields.filterMap fun (key, v?) => v?.map (key, ·) with
  | [] => none
  | given => some (name, .obj given)

/-- The settings that the environment makes. -/
def environmentLayer (environment : Table String) : Except Text.NumeralError Fields := do
  let find := valueSet? environment
  let defaultSize ← integerSet? environment "DEFAULT_PAGE_SIZE"
  let maxSize ← integerSet? environment "MAX_PAGE_SIZE"
  let sections :=
    [group? "logging"
      [("level", (find "LOG_LEVEL").map fun s => .str s.upperCase),
       ("file", (find "LOG_FILE").map .str),
       ("format", (find "LOG_FORMAT").map fun s => .str s.lowerCase)],
     group? "query"
      [("strict_mode", (find "STRICT_MODE").map fun s => .bool (environmentTruth s)),
       ("default_page_size", defaultSize),
       ("max_page_size", maxSize)],
     group? "metrics"
      [("enabled", (find "METRICS_ENABLED").map fun s => .bool (environmentTruth s))]]
  return sections.filterMap id

end DocStore
