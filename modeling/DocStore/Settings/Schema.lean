import DocStore.Text.Digit
import DocStore.Text.Numeral
import DocStore.Text.Split
import DocStore.Validation.Reader

/-!
# Settings

What can be set: how queries are run, what is logged and where to, and
whether metrics are kept. `Settings.ofEntries` checks a whole layer of
given values and fills in the rest; `Settings.toJson` shows the result.
A page size that goes without saying is never greater than the largest
allowed one.
-/

namespace DocStore

open Validation

/-! ## Query settings -/

/-- How queries are run. -/
structure QuerySettings where
  strict : Bool
  defaultPageSize : Nat
  maxPageSize : Nat
  default_pos : 0 < defaultPageSize := by decide
  default_le_max : defaultPageSize ≤ maxPageSize := by decide

namespace QuerySettings

def standard : QuerySettings :=
  { strict := false, defaultPageSize := 100, maxPageSize := 1000 }

/-- Puts checked values together, if the page sizes go together. -/
def ofValues (given : Given) (strict : Bool) (defaultSize maxSize : Int) : Checked QuerySettings :=
  if h : 0 < defaultSize.toNat ∧ defaultSize.toNat ≤ maxSize.toNat then
    .valid ⟨strict, defaultSize.toNat, maxSize.toNat, h.1, h.2⟩
  else
    .faulty [⟨[], .refused "default_page_size cannot exceed max_page_size", given⟩]

def read : Reader QuerySettings :=
  record "QueryConfig" fun entries =>
    let values : Checked (Bool × Int × Int) :=
      (fun strict defaultSize maxSize => (strict, defaultSize, maxSize)) <$>
        optionalField entries "strict_mode" standard.strict boolean <*>
        optionalField entries "default_page_size" (standard.defaultPageSize : Int)
          (integerFrom 1) <*>
        optionalField entries "max_page_size" (standard.maxPageSize : Int) (integerFrom 1)
    values.andThen fun v => ofValues (.map entries) v.1 v.2.1 v.2.2

def toJson (s : QuerySettings) : Json :=
  .obj [("strict_mode", .bool s.strict), ("default_page_size", .int s.defaultPageSize),
    ("max_page_size", .int s.maxPageSize)]

end QuerySettings

/-! ## Logging settings -/

/-- One of several named values. A standard choice, which nobody made,
has a second name, by which messages call it. -/
structure Choice where
  name : String
  standardName : Option String

/-- The name in a message. -/
def Choice.shown (c : Choice) : String :=
  c.standardName.getD c.name

/-- What is logged and where to. -/
structure LoggingSettings where
  level : Choice
  format : Choice
  file : Option String
  rotationSize : String
  rotationCount : Nat
  moduleLevels : Option (Table String)

namespace LoggingSettings

def standard : LoggingSettings where
  level := ⟨"INFO", some "LogLevel.INFO"⟩
  format := ⟨"json", some "LogFormat.JSON"⟩
  file := none
  rotationSize := "10MB"
  rotationCount := 5
  moduleLevels := none

/-- The levels that can be set, by their exact names. -/
def levelNames : List String := ["DEBUG", "INFO", "WARNING", "ERROR", "CRITICAL"]

/-- The formats that can be set, by their exact names. -/
def formatNames : List String := ["json", "text"]

/-- One of the given names. -/
def oneOf (names : List String) : Reader Choice :=
  choice (names.map fun name => (name, ⟨name, none⟩))

def read : Reader LoggingSettings :=
  record "LoggingConfig" fun entries =>
    (fun level format file size (count : Int) levels =>
        ⟨level, format, file, size, count.toNat, levels⟩) <$>
      optionalField entries "level" standard.level (oneOf levelNames) <*>
      optionalField entries "format" standard.format (oneOf formatNames) <*>
      optionalField entries "file" standard.file (nullable text) <*>
      optionalField entries "rotation_size" standard.rotationSize text <*>
      optionalField entries "rotation_count" (standard.rotationCount : Int) (integerFrom 0) <*>
      optionalField entries "module_levels" standard.moduleLevels (nullable (table text))

def toJson (s : LoggingSettings) : Json :=
  .obj [("level", .str s.level.name), ("format", .str s.format.name),
    ("file", (s.file.map Json.str).getD .null), ("rotation_size", .str s.rotationSize),
    ("rotation_count", .int s.rotationCount),
    ("module_levels",
      (s.moduleLevels.map fun t => .obj (t.map fun (k, v) => (k, .str v))).getD .null)]

end LoggingSettings

/-! ## Metrics settings -/

/-- Whether metrics are kept, and what their names begin with. -/
structure MetricsSettings where
  enabled : Bool
  space : String

namespace MetricsSettings

def standard : MetricsSettings := ⟨false, "mockcosmos"⟩

def read : Reader MetricsSettings :=
  record "MetricsConfig" fun entries =>
    mk <$> optionalField entries "enabled" standard.enabled boolean <*>
      optionalField entries "namespace" standard.space nonemptyText

def toJson (s : MetricsSettings) : Json :=
  .obj [("enabled", .bool s.enabled), ("namespace", .str s.space)]

end MetricsSettings

/-! ## All settings -/

/-- All that can be set. -/
structure Settings where
  version : String
  query : QuerySettings
  logging : LoggingSettings
  metrics : MetricsSettings

namespace Settings

def standard : Settings :=
  ⟨"1.0.0", .standard, .standard, .standard⟩

/-- Why a text is no version: it has to be three numbers with points
between. -/
def versionRefusal? (s : String) : Option String :=
  let parts := Text.splitAtChar '.' s.toList
  if parts.length ≠ 3 then some "Version must be in format x.y.z"
  else if parts.all fun part => !part.isEmpty && part.all Text.isDigit then none
  else some "Version components must be numeric"

/-- The name of the whole in reports. -/
def subject : String := "MockCosmosConfig"

/-- Reads a layer of settings; what is not given is standard. -/
def ofEntries (entries : Entries) : Checked Settings :=
  mk <$> optionalField entries "version" standard.version (textThat versionRefusal?) <*>
    optionalField entries "query" standard.query QuerySettings.read <*>
    optionalField entries "logging" standard.logging LoggingSettings.read <*>
    optionalField entries "metrics" standard.metrics MetricsSettings.read

/-- The settings can be shown: none of their numbers has too many
digits. -/
def isShowable (s : Settings) : Bool :=
  [s.query.defaultPageSize, s.query.maxPageSize, s.logging.rotationCount].all fun n =>
    (Nat.toDigits 10 n).length ≤ Text.maxIntDigits

def toJson (s : Settings) : Json :=
  .obj [("version", .str s.version), ("query", s.query.toJson), ("logging", s.logging.toJson),
    ("metrics", s.metrics.toJson)]

end Settings

end DocStore
