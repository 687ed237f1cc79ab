import DocStore.Store.Name
import DocStore.Validation.Reader

/-!
# Container descriptions

How a container is described to the outside: its name, a resource id, a
timestamp and a link to itself. A description is read leniently and
written in one form, which is itself an item.
-/

namespace DocStore

open Validation

/-- What describes a container. -/
structure ContainerDescription where
  name : String
  resourceId : String
  timestamp : Int
  selfLink : String

namespace ContainerDescription

/-- Reads a description. All fields but the name have two names each and
may be missing. -/
def read : Reader ContainerDescription :=
  record "Container" fun entries =>
    mk <$> requiredField entries "id" (textThat ContainerName.refusal?) <*>
      optionalFieldOf entries "_rid" "rid" "" text <*>
      optionalFieldOf entries "_ts" "ts" 0 integer <*>
      optionalFieldOf entries "_self" "self_link" "" text

/-- The description as an item. -/
def toJson (d : ContainerDescription) : Json :=
  .obj [("id", .str d.name), ("_rid", .str d.resourceId), ("_ts", .int d.timestamp),
    ("_self", .str d.selfLink)]

end ContainerDescription

end DocStore
