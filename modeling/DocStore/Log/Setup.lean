import DocStore.Log.ByteSize
import DocStore.Log.Logbook

/-!
# Setting up a logbook

A setup names the level of the root, the format of the lines, a file to
write to besides the console, and levels of single loggers. It is
carried out step by step; a step that fails ends it, and what was done
before stays done.
-/

namespace DocStore.Log

/-- How a logbook is to be set up. `shownLevel`, `shownFormat`,
`shownSize` and `shownCount` are what messages call the level, the
format, the size at which a file is full and the number of files to
keep. A size or a level that is given, but not as a text, is none. -/
structure Setup where
  level : String
  shownLevel : String
  format : String
  shownFormat : String
  file : Option String
  rotationSize : Option String
  shownSize : String
  shownCount : String
  levels : Table (Option String)

/-- Why a setup fails. -/
inductive SetupError where
  | unknownLevel (name : String)
  | notText
  | size (e : Text.NumeralError)
deriving DecidableEq

/-- A change of a logbook that may end early. -/
abbrev Changing (α : Type) := ExceptT SetupError (StateM Logbook) α

namespace Setup

/-- A text that has to be given as one. -/
def givenText (s : Option String) : Changing String :=
  match s with
  | some s => pure s
  | none => throw .notText

/-- The level of a name. -/
def namedLevel (name : String) : Changing Int :=
  match levelOf? name with
  | some level => pure level
  | none => throw (.unknownLevel name)

/-- Adds a file to the sinks. The size at which the file is full has to
be readable. -/
def addFile (created : Instant) (s : Setup) (format : LineFormat) (path : String) :
    Changing Unit := do
  match ByteSize.parse (← givenText s.rotationSize) with
  | .error e => throw (.size e)
  | .ok _ =>
      let key := FilePath.normalize path
      modify fun b =>
        { b with
          sinks := b.sinks ++ [.file format key]
          files := b.files.put key ((b.files.get? key).getD []) }
      modify (·.add created (.plain rootLogger info
        ("Logging to file: " ++ path ++ " (rotation: " ++ s.shownSize ++ ", count: " ++
          s.shownCount ++ ")")))

/-- Gives single loggers their levels. -/
def setLevels (levels : Table (Option String)) : Changing Unit :=
  levels.forM fun (logger, name) => do
    let level ← namedLevel (← givenText name)
    modify (·.setLevel logger level)

/-- Carries out a setup. -/
def run (created : Instant) (s : Setup) : Changing Unit := do
  let level ← namedLevel s.level
  let format := LineFormat.ofName s.format
  modify fun b => { b with rootLevel := level, sinks := [.console format] }
  match s.file.filter fun path => !path.isEmpty with
  | some path => addFile created s format path
  | none => pure ()
  setLevels s.levels
  modify (·.add created (.plain rootLogger debug
    ("Logging configured: level=" ++ s.shownLevel ++ ", format=" ++ s.shownFormat)))

end Setup

/-- The logbook after a setup, and whether it was carried out to the
end. -/
def Logbook.setUp (b : Logbook) (created : Instant) (s : Setup) :
    Except SetupError Unit × Logbook :=
  (s.run created).run.run b

end DocStore.Log
