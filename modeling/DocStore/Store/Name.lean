import DocStore.Text.Blank

/-!
# Container names

A container is named by a text of 1 to 255 characters, not all of them
blank, without slashes, backslashes, question marks and hash signs.
-/

namespace DocStore

namespace ContainerName

/-- The characters that no container name has. -/
def forbidden : List Char := ['/', '\\', '?', '#']

/-- The largest number of characters of a name. -/
def maxLength : Nat := 255

/-- Why a text is no container name. -/
def refusal? (s : String) : Option String :=
  if s.toList.all Text.isBlank then some "Container ID cannot be empty"
  else if maxLength < s.length then some "Container ID must be 255 characters or less"
  else if s.toList.any forbidden.contains then
    some "Container ID cannot contain '/', '\\', '?' or '#'"
  else none

/-- A text may name a container. -/
def Allowed (s : String) : Prop :=
  refusal? s = none

instance (s : String) : Decidable (Allowed s) :=
  inferInstanceAs (Decidable (refusal? s = none))

end ContainerName

end DocStore
