import DocStore.Run
import DocStore.Settings.File
import DocStore.Settings.Layer
import DocStore.Settings.Schema

/-!
# Loading settings

Settings are loaded from a file, the environment and explicit overrides,
each laid over the one before, and are then checked as a whole. A loader
remembers what it loaded and from where (`SettingsLoader.load`), so that
`reload` can do it again with files and environment as they are by then.

A load that fails keeps the settings in force, unless it fails at the
very end, where the settings are shown (`LoadError.unshowable`). What a
load got through is remembered all the same: the file once it has been
read, the overrides once they have been laid over.
-/

namespace DocStore

open Validation

/-- What settings are loaded from, apart from overrides: files by their
paths and the variables of the environment. -/
structure Surroundings where
  files : Table String
  environment : Table String

/-- Why settings cannot be loaded. -/
inductive LoadError where
  | file (e : FileError)
  | environment (e : Text.NumeralError)
  | fileHoldsList
  | fileHoldsNoObject
  | nameNotText
  | overridesNoObject
  | invalid (issues : List Issue)
  | unshowable

/-- What loading tells of itself. -/
inductive LoadNotice where
  | loading
  | fileRead (path : String)
  | environmentApplied (groups : Nat)
  | refused (issues : List Issue)
  | active (settings : Settings)

/-- A step of loading. -/
abbrev Loading (α : Type) := Run LoadNotice LoadError α

namespace Loading

/-- Lays fields over what a file holds. A list bears nothing but an
empty layer. -/
def overlay (content : FileContent) (layer : Fields) : Except LoadError FileContent :=
  match content with
  | .map entries => .ok (.map (entries.overlay (Given.ofFields layer)))
  | .list => if layer.isEmpty then .ok .list else .error .fileHoldsList
  | .other => .error .fileHoldsNoObject

/-- Reads the file, if one is given. -/
def fileLayer (files : Table String) (path? : Option String) : Loading FileContent := do
  Run.notify .loading
  match path? with
  | none => pure (.map [])
  | some path =>
      let content ← Run.ofExcept ((FileContent.ofFile files path).mapError .file)
      Run.notify (.fileRead path)
      pure content

/-- Lays the environment over the file. -/
def withEnvironment (environment : Table String) (content : FileContent) :
    Loading FileContent := do
  let layer ← Run.ofExcept ((environmentLayer environment).mapError .environment)
  let content ← Run.ofExcept (overlay content layer)
  if !layer.isEmpty then
    Run.notify (.environmentApplied layer.length)
  pure content

/-- Lays overrides over the other layers; blank overrides count as not
given. -/
def withOverrides (overrides : Json) (content : FileContent) : Loading FileContent :=
  if overrides.isBlank then
    pure content
  else
    match overrides with
    | .obj fields => Run.ofExcept (overlay content fields)
    | _ => Run.fail .overridesNoObject

/-- Checks the layers together. -/
def checked (content : FileContent) : Loading Settings := do
  match content with
  | .map entries =>
      if !entries.namesAreTexts then
        Run.fail .nameNotText
      else
        match (Settings.ofEntries entries).toExcept with
        | .ok settings => pure settings
        | .error issues =>
            Run.notify (.refused issues)
            Run.fail (.invalid issues)
  | _ => Run.fail .fileHoldsList

/-- Shows the settings, which are in force by now. -/
def shown (settings : Settings) : Loading Settings := do
  if settings.isShowable then
    Run.notify (.active settings)
    pure settings
  else
    Run.fail .unshowable

/-- Showing settings leaves them as they are. -/
theorem outcome_of_shown_eq_ok {x : Loading Settings} {settings : Settings}
    (h : (x >>= shown).outcome = .ok settings) : x.outcome = .ok settings := by
  obtain ⟨ns, o⟩ := x
  cases o with
  | error e => cases h
  | ok a =>
      change (shown a).outcome = _ at h
      unfold shown at h
      split at h
      · exact h
      · cases h

/-- What is wrong shows before settings are shown, unless they cannot
be. -/
theorem outcome_of_shown_eq_error {x : Loading Settings} {e : LoadError} (he : e ≠ .unshowable)
    (h : (x >>= shown).outcome = .error e) : x.outcome = .error e := by
  obtain ⟨ns, o⟩ := x
  cases o with
  | error e' => exact h
  | ok a =>
      change (shown a).outcome = _ at h
      unfold shown at h
      split at h
      · cases h
      · exact absurd (Except.error.inj h).symm he

end Loading

/-! ## The loader -/

/-- The settings in force, and where the last load took them from. -/
structure SettingsLoader where
  current : Option Settings
  file : Option String
  overrides : Json

namespace SettingsLoader

/-- A loader that has loaded nothing. -/
def new : SettingsLoader := ⟨none, none, .null⟩

/-- Loads settings. -/
def load (l : SettingsLoader) (s : Surroundings) (path : Option String) (overrides : Json) :
    SettingsLoader × Loading Settings :=
  let path? := path.filter fun p => !p.isEmpty
  let file := Loading.fileLayer s.files path?
  let layers := file >>= Loading.withEnvironment s.environment >>= Loading.withOverrides overrides
  let checked := layers >>= Loading.checked
  ({ current := checked.outcome.toOption <|> l.current
     file := if file.outcome.isOk then path?.map FilePath.normalize <|> l.file else l.file
     overrides := if layers.outcome.isOk then overrides else l.overrides },
    checked >>= Loading.shown)

/-- A load that fails before settings are shown keeps the settings in
force. -/
theorem current_load_of_error {l : SettingsLoader} {s : Surroundings} {path : Option String}
    {overrides : Json} {e : LoadError} (he : e ≠ .unshowable)
    (h : (l.load s path overrides).2.outcome = .error e) :
    (l.load s path overrides).1.current = l.current := by
  have h' := Loading.outcome_of_shown_eq_error he h
  simp only [load] at h' ⊢
  rw [h']
  rfl

/-- The settings that a load gives are in force afterwards. -/
theorem current_load_of_ok {l : SettingsLoader} {s : Surroundings} {path : Option String}
    {overrides : Json} {settings : Settings}
    (h : (l.load s path overrides).2.outcome = .ok settings) :
    (l.load s path overrides).1.current = some settings := by
  have h' := Loading.outcome_of_shown_eq_ok h
  simp only [load] at h' ⊢
  rw [h']
  rfl

/-- Loads again what was loaded before. -/
def reload (l : SettingsLoader) (s : Surroundings) : SettingsLoader × Loading Settings :=
  l.load s l.file l.overrides

/-- What is said if there are no settings yet. -/
def notLoadedMessage : String := "Configuration not loaded. Call load() first."

end SettingsLoader

end DocStore
