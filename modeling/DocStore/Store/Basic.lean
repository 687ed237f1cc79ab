import DocStore.Run
import DocStore.Store.Error
import DocStore.Store.Name

/-!
# The store

A store holds collections of documents by the names of their containers,
in the order in which they were made. A collection holds its documents
in the order in which they were added, no two of one id. `addContainer`
and `addItem` give the store with what is new, or an error and no store:
what is refused changes nothing.
-/

namespace DocStore

/-! ## Collections -/

/-- The documents of a container. -/
structure Collection where
  documents : List Document
  ids_nodup : (documents.map (·.id)).Nodup

namespace Collection

def empty : Collection := ⟨[], List.nodup_nil⟩

def ids (c : Collection) : List DocumentId :=
  c.documents.map (·.id)

/-- The documents as values. -/
def contents (c : Collection) : List Json :=
  c.documents.map (·.toJson)

/-- Adds a document of a new id. -/
def add (c : Collection) (d : Document) (h : d.id ∉ c.ids) : Collection where
  documents := c.documents ++ [d]
  ids_nodup := by
    rw [List.map_append]
    refine List.nodup_append.2 ⟨c.ids_nodup, by simp, fun a ha b hb hab => h ?_⟩
    have hb : b = d.id := by simpa using hb
    exact hb ▸ hab ▸ ha

@[simp] theorem contents_add (c : Collection) (d : Document) (h : d.id ∉ c.ids) :
    (c.add d h).contents = c.contents ++ [d.toJson] := by
  simp [contents, add]

end Collection

/-! ## Stores -/

/-- Collections by the names of their containers. -/
structure Store where
  collections : Table Collection
  names_allowed : ∀ name ∈ collections.keys, ContainerName.Allowed name
  names_nodup : collections.keys.Nodup

/-- What a store tells of its changes. -/
inductive StoreNotice where
  | created (container : String)
  | added (id : DocumentId) (container : String)
deriving DecidableEq

/-- A request that may change a store. -/
abbrev Storing (α : Type) := Run StoreNotice StoreError α

namespace Store

def empty : Store := ⟨[], by simp [Table.keys], List.nodup_nil⟩

/-- The names of the containers. -/
def names (s : Store) : List String :=
  s.collections.keys

/-- The collection of a container. -/
def find? (s : Store) (name : String) : Option Collection :=
  s.collections.get? name

/-- Writes the collection of a container. -/
def put (s : Store) (name : String) (c : Collection) (h : ContainerName.Allowed name) : Store where
  collections := s.collections.put name c
  names_allowed := fun other hmem =>
    match Table.mem_keys_put hmem with
    | .inl hold => s.names_allowed other hold
    | .inr heq => heq ▸ h
  names_nodup := Table.nodup_keys_put name c s.names_nodup

theorem find?_put_self (s : Store) (name : String) (c : Collection)
    (h : ContainerName.Allowed name) : (s.put name c h).find? name = some c :=
  Table.get?_put_self ..

theorem find?_put_of_ne (s : Store) {name other : String} (c : Collection)
    (h : ContainerName.Allowed name) (hne : other ≠ name) :
    (s.put name c h).find? other = s.find? other :=
  Table.get?_put_of_ne _ _ hne

theorem allowed_of_find? {s : Store} {name : String} {c : Collection}
    (h : s.find? name = some c) : ContainerName.Allowed name :=
  s.names_allowed name ((Table.has_iff_mem_keys ..).1 (by
    rw [find?] at h; rw [Table.has, h]; rfl))

/-- The name that a value is; a number, a truth value or null is the
name of no container. -/
def nameOf (container : Json) : Except StoreError String :=
  match container with
  | .str name => .ok name
  | .arr _ | .obj _ => .error .notAName
  | _ => .error (.containerNotFound container)

/-- The collection of the container that a value names. -/
def locate (s : Store) (container : Json) : Except StoreError Collection := do
  let name ← nameOf container
  match s.find? name with
  | some c => .ok c
  | none => .error (.containerNotFound container)

/-- Makes a container, unless it is there. -/
def addContainer (s : Store) (container : Json) : Storing Store :=
  match container with
  | .str name =>
      if (s.find? name).isSome then
        pure s
      else
        match h : ContainerName.refusal? name with
        | none => do
            Run.notify (.created name)
            pure (s.put name .empty h)
        | some reason => Run.fail (.badRequest (.containerName container (.refused reason)))
  | .arr _ | .obj _ => Run.fail .notAName
  | _ => Run.fail (.badRequest (.containerName container .textWanted))

/-- A container that is there is left as it is. -/
theorem addContainer_of_find? {s : Store} {name : String} {c : Collection}
    (h : s.find? name = some c) : s.addContainer (.str name) = pure s := by
  simp [addContainer, h]

/-- A text that is no container name is refused. -/
theorem addContainer_of_refusal {s : Store} {name reason : String} (hn : s.find? name = none)
    (h : ContainerName.refusal? name = some reason) :
    s.addContainer (.str name) =
      Run.fail (.badRequest (.containerName (.str name) (.refused reason))) := by
  simp only [addContainer, hn]
  split
  · simp_all
  · split <;> simp_all

/-- Adds a document to a container. -/
def addDocument (s : Store) (container : Json) (d : Document) : Storing Store := do
  let name ← Run.ofExcept (nameOf container)
  match hc : s.find? name with
  | none => Run.fail (.containerNotFound container)
  | some c =>
      if h : d.id ∈ c.ids then
        Run.fail (.documentExists d.id name)
      else
        Run.notify (.added d.id name)
        pure (s.put name (c.add d h) (allowed_of_find? hc))

/-- Adds the document that an item makes; `fresh` is its id if it brings
none. -/
def addItem (s : Store) (fresh : DocumentId) (container item : Json) :
    Storing (Store × Document) := do
  let d ← Run.ofExcept ((Document.ofItem fresh item).mapError fun e => .badRequest (.item e))
  let s ← s.addDocument container d
  pure (s, d)

end Store

end DocStore
