import DocStore.Json.Basic

/-!
# Property paths

A path is a list of field names. `resolve` follows it through nested
objects and is undefined where a field is missing or something other
than an object is entered; the empty path is the value itself.
`Fields.setPath` writes at a path that is not empty and makes the
objects on the way: what stands there and is no object is replaced.
-/

namespace DocStore

/-- The value at a path. -/
def Json.resolve (v : Json) : List String → Value
  | [] => some v
  | segment :: rest =>
      match v with
      | .obj fields =>
          match Table.get? fields segment with
          | some child => child.resolve rest
          | none => none
      | _ => none

/-- Writes a value at the path `segment :: rest`. -/
def Fields.setPath (fields : Fields) (segment : String) (rest : List String) (value : Json) :
    Fields :=
  match rest with
  | [] => fields.put segment value
  | next :: rest =>
      let child : Fields :=
        match Table.get? fields segment with
        | some (.obj inner) => inner
        | _ => []
      fields.put segment (.obj (child.setPath next rest value))

/-- A value cannot be written at the empty path. -/
inductive PathError where
  | emptyPath
deriving DecidableEq

def PathError.message : PathError → String
  | emptyPath => "Cannot set a value at an empty path"

/-- Writes a value at a path. -/
def Fields.set (fields : Fields) (path : List String) (value : Json) : Except PathError Fields :=
  match path with
  | [] => .error .emptyPath
  | segment :: rest => .ok (fields.setPath segment rest value)

end DocStore
