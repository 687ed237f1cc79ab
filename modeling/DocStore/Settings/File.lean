import DocStore.Json.Reader
import DocStore.Text.FilePath
import DocStore.Text.NumeralError
import DocStore.Yaml.Document

/-!
# Settings files

A settings file is JSON or YAML, as the ending of its name says. It
should hold a map; what else it may hold is told apart only as far as it
fails differently later on. A blank YAML document counts as a map
without entries.
-/

namespace DocStore

open Validation

/-- What a settings file holds: a map, a list, or something else. -/
inductive FileContent where
  | map (entries : Entries)
  | list
  | other

/-- Why a settings file cannot be read. -/
inductive FileError where
  | missing (path : String)
  | folder (path : String)
  | unknownEnding (ending : String)
  | json (e : Json.ReadError)
  | yaml (e : Yaml.Fault)
deriving DecidableEq

def FileError.message : FileError → String
  | missing path => "Configuration file not found: " ++ path
  | folder path => "[Errno 21] Is a directory: " ++ path.inQuotes
  | unknownEnding ending => "Unsupported config file format: " ++ ending
  | json .malformed => ""
  | json (.tooManyDigits count) => (Text.NumeralError.tooManyDigits count).message
  | yaml e => e.message

namespace FileContent

def ofGiven : Given → FileContent
  | .map entries => map entries
  | .list _ => list
  | _ => other

/-- A blank value counts as a map without entries. -/
def ofYaml (g : Given) : FileContent :=
  if g.toJson.isBlank then map [] else ofGiven g

/-- Reads a text in the way that the ending of a file name asks for. -/
def ofText (ending text : String) : Except FileError FileContent :=
  if ending = ".yaml" || ending = ".yml" then
    ((Yaml.parse text).mapError .yaml).map ofYaml
  else if ending = ".json" then
    ((Json.parse text).mapError .json).map fun v => ofGiven (.ofJson v)
  else
    .error (.unknownEnding ending)

/-- Reads a file, given all files by their paths. -/
def ofFile (files : Table String) (path : String) : Except FileError FileContent :=
  let normal := FilePath.normalize path
  match files.get? normal with
  | some text => ofText (FilePath.ending path) text
  | none => .error (if FilePath.isFolder path then .folder normal else .missing path)

end FileContent

end DocStore
