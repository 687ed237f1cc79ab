import DocStore.Log.Setup
import DocStore.Settings.Loader

/-!
# The journal of settings

What loading settings puts into the log (`LoadNotice.record`), and the
setup of the log that the settings ask for (`LoggingSettings.setup`).
-/

namespace DocStore

open Log

/-- The logger of the loader. -/
def LoggerName.settings : String := "mockcosmos.core.config_manager"

/-- The record of a notice of the loader; `help` says where to read
about a fault. -/
def LoadNotice.record (help : Validation.Fault → String) : LoadNotice → Record
  | .loading => .plain LoggerName.settings debug "Loading MockCosmos configuration"
  | .fileRead path =>
      .plain LoggerName.settings info ("Loaded configuration from file: " ++ path)
  | .environmentApplied groups =>
      .plain LoggerName.settings info
        ("Applied " ++ natText groups ++ " environment variable override groups")
  | .refused issues =>
      .plain LoggerName.settings error
        ("Configuration validation failed: " ++ Validation.report help Settings.subject issues)
  | .active settings =>
      .plain LoggerName.settings debug
        ("Active configuration: " ++ settings.toJson.write .spacedAscii)

/-- The setup of the log that settings ask for. -/
def LoggingSettings.setup (s : LoggingSettings) : Setup where
  level := s.level.name
  shownLevel := s.level.shown
  format := s.format.name
  shownFormat := s.format.shown
  file := s.file
  rotationSize := some s.rotationSize
  shownSize := s.rotationSize
  shownCount := natText s.rotationCount
  levels := (s.moduleLevels.getD []).map fun (logger, level) => (logger, some level)

end DocStore
