import DocStore.Json.Basic

/-!
# Documents

A document is an object with an id, a text that is not empty. As a value
(`Document.toJson`) it shows its id first and its other fields in the
order in which they were given.
-/

namespace DocStore

/-- The id of a document. -/
structure DocumentId where
  text : String
  nonempty : text ≠ ""
deriving DecidableEq

/-- A document: its id and its other fields. -/
structure Document where
  id : DocumentId
  others : Fields

/-- Why an item is no document. -/
inductive ItemError where
  | noObject (item : Json)
  | idNoText

namespace Document

/-- The document as a value. -/
def toJson (d : Document) : Json :=
  .obj (("id", .str d.id.text) :: d.others)

/-- The id that an item brings along; an empty text counts as none. -/
def givenId? (fields : Fields) : Except ItemError (Option DocumentId) :=
  match fields.get? "id" with
  | none | some .null => .ok none
  | some (.str s) => .ok (if h : s ≠ "" then some ⟨s, h⟩ else none)
  | some _ => .error .idNoText

/-- The document that an item makes; `fresh` is its id if it brings
none. -/
def ofItem (fresh : DocumentId) (item : Json) : Except ItemError Document :=
  match item with
  | .obj fields => do
      let given? ← givenId? fields
      return ⟨given?.getD fresh, fields.filter fun f => f.1 ≠ "id"⟩
  | _ => .error (.noObject item)

end Document

end DocStore
