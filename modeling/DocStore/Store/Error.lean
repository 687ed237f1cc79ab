import DocStore.Store.Document
import DocStore.Validation.Issue

/-!
# Errors of the store

What a store refuses to do, with the messages and the codes of the
refusals.
-/

namespace DocStore

/-- Why a request makes no sense, whatever the store holds. -/
inductive BadRequest where
  | containerName (given : Json) (fault : Validation.Fault)
  | item (e : ItemError)
  | itemCount (given : Json)

def BadRequest.message : BadRequest → String
  | .containerName given fault =>
      "Invalid container id " ++ given.display ++ ": " ++ fault.message
  | .item (.noObject v) => "Items must be JSON objects, got " ++ v.typeName
  | .item .idNoText =>
      "Invalid document: " ++ (Validation.Fault.refused "Document id must be a string").message
  | .itemCount given => "max_item_count must be a positive integer, got " ++ given.display

/-- Why a request is refused. A list or an object cannot even be looked
up as a name. -/
inductive StoreError where
  | badRequest (cause : BadRequest)
  | containerNotFound (name : Json)
  | documentExists (id : DocumentId) (container : String)
  | notAName

namespace StoreError

def message : StoreError → String
  | badRequest cause => cause.message
  | containerNotFound name => "Container '" ++ name.plainDisplay ++ "' not found"
  | documentExists id _ => "Document with id '" ++ id.text ++ "' already exists"
  | notAName => ""

/-- The code of a refusal. -/
def code : StoreError → String
  | badRequest _ | notAName => "BadRequest"
  | containerNotFound _ => "NotFound"
  | documentExists .. => "Conflict"

end StoreError

end DocStore
