import DocStore.Json.Path
import DocStore.Proofs.Table

/-!
# Reading and writing at paths

What is written at a path is read back there (`resolve_setPath_self`), and
what is read at a path apart from it stays as it was
(`resolve_setPath_of_apart`). The latter also holds where the write
replaces something that is no object: below it, nothing could be read
before (`Fields.below`). Writing what stands there already changes nothing
(`setPath_of_resolve`), and of two values written one after the other the
second one counts (`setPath_setPath`).
-/

namespace DocStore

/-- Neither path is at or below the other. -/
def Apart (p q : List String) : Prop :=
  ¬ p <+: q ∧ ¬ q <+: p

instance (p q : List String) : Decidable (Apart p q) :=
  inferInstanceAs (Decidable (_ ∧ _))

theorem Apart.symm {p q : List String} (h : Apart p q) : Apart q p := And.symm h

theorem Apart.ne_nil {p q : List String} (h : Apart p q) : q ≠ [] := by
  rintro rfl
  exact h.2 (List.nil_prefix ..)

theorem apart_cons {s t : String} {p q : List String} :
    Apart (s :: p) (t :: q) ↔ s ≠ t ∨ Apart p q := by
  simp only [Apart, List.cons_prefix_cons]
  by_cases h : s = t
  · simp [h]
  · simp [h, Ne.symm h]

/-! ## Reading -/

theorem resolve_cons (v : Json) (segment : String) (rest : List String) :
    v.resolve (segment :: rest) = (v.field? segment).bind (·.resolve rest) := by
  match v with
  | .obj fields =>
      rw [Json.resolve, Json.field?]
      cases Table.get? fields segment <;> rfl
  | .null | .bool _ | .int _ | .float _ | .str _ | .arr _ => rfl

theorem resolve_obj_cons (fields : Fields) (segment : String) (rest : List String) :
    (Json.obj fields).resolve (segment :: rest) =
      (Table.get? fields segment).bind (·.resolve rest) :=
  resolve_cons ..

theorem resolve_empty {path : List String} (h : path ≠ []) : (Json.obj []).resolve path = none := by
  cases path with
  | nil => exact absurd rfl h
  | cons segment rest => rfl

theorem exists_obj_of_resolve {v w : Json} {segment : String} {rest : List String}
    (h : v.resolve (segment :: rest) = some w) : ∃ fields, v = .obj fields := by
  match v with
  | .obj fields => exact ⟨fields, rfl⟩
  | .null | .bool _ | .int _ | .float _ | .str _ | .arr _ => cases h

/-! ## Writing -/

section Writing

variable {fields : Fields} {segment : String} {value : Json}

/-- The object that a write below a field goes on in: a new one, unless the
field is an object. -/
def Fields.below (fields : Fields) (segment : String) : Fields :=
  match Table.get? fields segment with
  | some (.obj inner) => inner
  | _ => []

theorem setPath_cons (fields : Fields) (segment next : String) (rest : List String) (value : Json) :
    fields.setPath segment (next :: rest) value =
      fields.put segment (.obj ((fields.below segment).setPath next rest value)) := rfl

theorem Fields.below_of_get? {inner : Fields} (h : Table.get? fields segment = some (.obj inner)) :
    fields.below segment = inner := by
  rw [Fields.below, h]

/-- Below the field, the new object and what it replaces are read alike. -/
theorem resolve_below (fields : Fields) (segment : String) {path : List String} (h : path ≠ []) :
    (Json.obj (fields.below segment)).resolve path = (Json.obj fields).resolve (segment :: path) := by
  rw [resolve_obj_cons]
  unfold Fields.below
  match Table.get? fields segment with
  | some (.obj inner) => rfl
  | none | some .null | some (.bool _) | some (.int _) | some (.float _) | some (.str _)
  | some (.arr _) =>
      cases path with
      | nil => exact absurd rfl h
      | cons next rest => rfl

theorem exists_setPath_eq_put (fields : Fields) (segment : String) (rest : List String)
    (value : Json) : ∃ child, fields.setPath segment rest value = fields.put segment child := by
  cases rest with
  | nil => exact ⟨value, rfl⟩
  | cons next rest => exact ⟨_, setPath_cons ..⟩

theorem resolve_setPath_self (fields : Fields) (segment : String) (rest : List String)
    (value : Json) :
    (Json.obj (fields.setPath segment rest value)).resolve (segment :: rest) = some value := by
  induction rest generalizing fields segment with
  | nil =>
      rw [resolve_obj_cons, Fields.setPath, Table.get?_put_self]
      rfl
  | cons next rest ih =>
      rw [resolve_obj_cons, setPath_cons, Table.get?_put_self]
      exact ih (fields.below segment) next

theorem resolve_setPath_of_apart {rest other : List String} (h : Apart (segment :: rest) other) :
    (Json.obj (fields.setPath segment rest value)).resolve other =
      (Json.obj fields).resolve other := by
  induction rest generalizing fields segment other with
  | nil =>
      match other, h.ne_nil with
      | key :: path, _ =>
          have hne : segment ≠ key := by
            rintro rfl
            exact h.1 (List.cons_prefix_cons.mpr ⟨rfl, List.nil_prefix ..⟩)
          rw [resolve_obj_cons, resolve_obj_cons, Fields.setPath,
            Table.get?_put_of_ne fields value hne.symm]
  | cons next rest ih =>
      match other, h.ne_nil with
      | key :: path, _ =>
          rw [resolve_obj_cons, setPath_cons]
          by_cases hkey : key = segment
          · subst hkey
            have hpath : Apart (next :: rest) path := (apart_cons.mp h).resolve_left fun hne => hne rfl
            rw [Table.get?_put_self, ← resolve_below fields key hpath.ne_nil]
            exact ih hpath
          · rw [Table.get?_put_of_ne _ _ hkey, resolve_obj_cons]

theorem setPath_of_resolve {rest : List String}
    (h : (Json.obj fields).resolve (segment :: rest) = some value) :
    fields.setPath segment rest value = fields := by
  induction rest generalizing fields segment with
  | nil =>
      rw [resolve_obj_cons, Option.bind_eq_some_iff] at h
      obtain ⟨child, hchild, hvalue⟩ := h
      rw [Fields.setPath, ← Option.some.inj hvalue]
      exact Table.put_of_get? hchild
  | cons next rest ih =>
      rw [resolve_obj_cons, Option.bind_eq_some_iff] at h
      obtain ⟨child, hchild, hvalue⟩ := h
      obtain ⟨inner, rfl⟩ := exists_obj_of_resolve hvalue
      rw [setPath_cons, Fields.below_of_get? hchild, ih hvalue]
      exact Table.put_of_get? hchild

theorem Fields.below_put_obj (fields : Fields) (segment : String) (inner : Fields) :
    Fields.below (fields.put segment (.obj inner)) segment = inner :=
  below_of_get? (Table.get?_put_self ..)

/-- The object that the first write leaves on the way is the one that the
second goes on in. -/
theorem setPath_setPath (fields : Fields) (segment : String) (rest : List String)
    (value value' : Json) :
    (fields.setPath segment rest value).setPath segment rest value' =
      fields.setPath segment rest value' := by
  induction rest generalizing fields segment with
  | nil => exact Table.put_put ..
  | cons next rest ih =>
      rw [setPath_cons, setPath_cons, setPath_cons, Fields.below_put_obj, ih, Table.put_put]

end Writing

/-! ## The laws of writing and reading -/

/-- **What is written at a path is what is read there, and nothing else
changes.** Every value can be written at a path that is not empty. It is
read back there; what is read at any path apart is as before; if it stood
there already, the object stays as it was, in the order of its keys too;
and a second write at the path leaves what it would have left alone. -/
theorem set_lawful (fields : Fields) {path : List String} (hpath : path ≠ []) (value : Json) :
    ∃ written, fields.set path value = .ok written ∧
      (Json.obj written).resolve path = some value ∧
      (∀ other, Apart path other →
        (Json.obj written).resolve other = (Json.obj fields).resolve other) ∧
      ((Json.obj fields).resolve path = some value → written = fields) ∧
      ∀ value', written.set path value' = fields.set path value' := by
  obtain ⟨segment, rest, rfl⟩ := List.exists_cons_of_ne_nil hpath
  refine ⟨fields.setPath segment rest value, rfl, ?_, ?_, ?_, ?_⟩
  · exact resolve_setPath_self fields segment rest value
  · intro other hother
    exact resolve_setPath_of_apart hother
  · exact setPath_of_resolve
  · intro value'
    exact congrArg Except.ok (setPath_setPath fields segment rest value value')

/-- A name that is a text becomes an object. What could not be read below
the text cannot be read now, and the same name written once more changes
nothing. -/
theorem set_lawful_replaced :
    let fields : Fields := [("name", .str "Ada"), ("id", .str "1")]
    let path := ["name", "first"]
    path ≠ [] ∧ Apart path ["name", "last"] ∧ Apart path ["id"] ∧
      ∃ written, fields.set path (.str "Ada") = .ok written ∧
        (Json.obj written).resolve path = some (.str "Ada") ∧
        (Json.obj written).resolve ["name", "last"] = none ∧
        (Json.obj written).resolve ["id"] = some (.str "1") ∧
        written.set path (.str "Ada") = .ok written ∧
        written.set path .null = fields.set path .null := by
  intro fields path
  have hpath : path ≠ [] := by decide
  have hlast : Apart path ["name", "last"] := by decide
  have hid : Apart path ["id"] := by decide
  obtain ⟨written, hset, hself, hapart, -, htwice⟩ := set_lawful fields hpath (.str "Ada")
  obtain ⟨again, hagain, -, -, hsame, -⟩ := set_lawful written hpath (.str "Ada")
  rw [hsame hself] at hagain
  exact ⟨hpath, hlast, hid, written, hset, hself, hapart _ hlast, hapart _ hid, hagain,
    htwice .null⟩

end DocStore
