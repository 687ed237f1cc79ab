/-!
# Tables

A table maps keys to values and remembers the order in which the keys
first arrived. `put` writes an entry: a key that is present keeps its
place, a new key goes to the end. `get?_put_self` and `get?_put_of_ne`
say what is read back, `keys_put` where the keys stand.
-/

namespace DocStore

/-- Entries in the order of their arrival; keys are texts, unless said
otherwise. -/
abbrev Table (α : Type) (κ : Type := String) := List (κ × α)

namespace Table

variable {α κ : Type}

/-- The keys, in order of arrival. -/
def keys (t : Table α κ) : List κ :=
  t.map (·.1)

/-- The values, in order of arrival of their keys. -/
def values (t : Table α κ) : List α :=
  t.map (·.2)

variable [DecidableEq κ]

/-- The value at a key. -/
def get? (t : Table α κ) (key : κ) : Option α :=
  match t with
  | [] => none
  | (k, v) :: rest => if k = key then some v else get? rest key

/-- The key is present. -/
def has (t : Table α κ) (key : κ) : Bool :=
  (t.get? key).isSome

/-- Writes an entry: in its place if the key is present, else at the
end. -/
def put (t : Table α κ) (key : κ) (value : α) : Table α κ :=
  match t with
  | [] => [(key, value)]
  | (k, v) :: rest => if k = key then (k, value) :: rest else (k, v) :: put rest key value

/-- Writes entries one after the other. -/
def putAll (t : Table α κ) (entries : List (κ × α)) : Table α κ :=
  entries.foldl (fun t e => t.put e.1 e.2) t

/-- The table that arises when entries are written one after the
other. -/
def ofEntries (entries : List (κ × α)) : Table α κ :=
  putAll [] entries

theorem get?_put_self (t : Table α κ) (key : κ) (value : α) :
    (t.put key value).get? key = some value := by
  induction t with
  | nil => simp [put, get?]
  | cons e rest ih => grind [put, get?]

theorem get?_put_of_ne (t : Table α κ) {key other : κ} (value : α) (h : other ≠ key) :
    (t.put key value).get? other = t.get? other := by
  induction t with
  | nil => simp [put, get?, h.symm]
  | cons e rest ih => grind [put, get?]

theorem has_iff_mem_keys (t : Table α κ) (key : κ) : t.has key = true ↔ key ∈ t.keys := by
  induction t with
  | nil => simp [has, get?, keys]
  | cons e rest ih => grind [has, get?, keys]

theorem keys_put (t : Table α κ) (key : κ) (value : α) :
    (t.put key value).keys = if t.has key then t.keys else t.keys ++ [key] := by
  induction t with
  | nil => simp [put, keys, has, get?]
  | cons e rest ih => grind [put, keys, has, get?]

theorem mem_keys_put {t : Table α κ} {key other : κ} {value : α}
    (h : other ∈ (t.put key value).keys) : other ∈ t.keys ∨ other = key := by
  rw [keys_put] at h
  split at h
  · exact .inl h
  · simpa using h

theorem nodup_keys_put {t : Table α κ} (key : κ) (value : α) (h : t.keys.Nodup) :
    (t.put key value).keys.Nodup := by
  rw [keys_put]
  split
  · exact h
  · rename_i hk
    rw [has_iff_mem_keys] at hk
    refine List.nodup_append.2 ⟨h, by simp, fun a ha b hb => ?_⟩
    rintro rfl
    exact hk (List.mem_singleton.1 hb ▸ ha)

end Table

end DocStore
