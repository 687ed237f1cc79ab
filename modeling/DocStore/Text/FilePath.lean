import DocStore.Text.Split

/-!
# File paths

A path is remembered without empty and `.` parts. The ending of a file
name decides how the file is read; a name that is nothing but an ending
has none.
-/

namespace DocStore.FilePath

/-- The part of a path that says where it starts: two slashes are kept,
three are one. -/
def root (path : List Char) : List Char :=
  match path.takeWhile (· = '/') with
  | [] => []
  | ['/', '/'] => ['/', '/']
  | _ => ['/']

/-- The parts of a path that lead somewhere. -/
def parts (path : List Char) : List (List Char) :=
  (Text.splitAtChar '/' path).filter fun part => part ≠ [] && part ≠ ['.']

/-- The path without empty and `.` parts. -/
def normalize (path : String) : String :=
  let cs := path.toList
  match root cs ++ ['/'].intercalate (parts cs) with
  | [] => "."
  | cs => String.ofList cs

/-- The path leads to a folder, whatever files there are: to where it
starts, or upwards. -/
def isFolder (path : String) : Bool :=
  (parts path.toList).all (· = ['.', '.'])

/-- The ending of the file name, with its point. -/
def ending (path : String) : String :=
  match (parts path.toList).getLast? with
  | none => ""
  | some name =>
      let reversed := name.reverse
      let after := reversed.takeWhile (· ≠ '.')
      let stem := (reversed.dropWhile (· ≠ '.')).drop 1
      if after.isEmpty || stem.isEmpty || after.length = name.length then ""
      else String.ofList ('.' :: after.reverse)

end DocStore.FilePath
