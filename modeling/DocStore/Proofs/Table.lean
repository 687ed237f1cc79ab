import DocStore.Table

/-!
# More about tables

Entries with distinct keys are their own table (`ofEntries_of_nodup`),
and what is read back from them is the entry of the key
(`get?_of_mem`). Reading and writing go through a function on the values
(`get?_map`, `put_map`).
-/

namespace DocStore.Table

variable {α κ : Type} [DecidableEq κ]

theorem get?_of_mem {t : Table α κ} {key : κ} {value : α} (hnd : t.keys.Nodup)
    (h : (key, value) ∈ t) : t.get? key = some value := by
  induction t with
  | nil => cases h
  | cons e rest ih =>
      obtain ⟨k, v⟩ := e
      obtain ⟨hk, hrest⟩ := List.nodup_cons.mp hnd
      rcases List.mem_cons.mp h with heq | hmem
      · obtain ⟨rfl, rfl⟩ := Prod.mk.injEq .. |>.mp heq
        simp [get?]
      · have hne : k ≠ key := by
          rintro rfl
          exact hk (List.mem_map.mpr ⟨(k, value), hmem, rfl⟩)
        simp [get?, hne, ih hrest hmem]

theorem put_of_not_mem {t : Table α κ} {key : κ} (value : α) (h : key ∉ t.keys) :
    t.put key value = t ++ [(key, value)] := by
  induction t with
  | nil => rfl
  | cons e rest ih =>
      have hne : e.1 ≠ key := fun heq => h (heq ▸ List.mem_cons_self ..)
      have hrest : key ∉ keys rest := fun hmem => h (List.mem_cons_of_mem _ hmem)
      simp [put, hne, ih hrest]

theorem putAll_of_nodup {t : Table α κ} {entries : List (κ × α)}
    (h : (keys (t ++ entries)).Nodup) : t.putAll entries = t ++ entries := by
  induction entries generalizing t with
  | nil => simp [putAll]
  | cons e rest ih =>
      have hkey : e.1 ∉ keys t := by
        intro hmem
        rw [keys, List.map_append, List.nodup_append] at h
        exact h.2.2 _ hmem _ (List.mem_map_of_mem (List.mem_cons_self ..)) rfl
      have hput : t.put e.1 e.2 = t ++ [e] := put_of_not_mem e.2 hkey
      have hstep : putAll t (e :: rest) = putAll (t.put e.1 e.2) rest := rfl
      rw [hstep, hput, ih (by simpa using h)]
      simp

/-- Entries with distinct keys are the table that they make. -/
theorem ofEntries_of_nodup {entries : List (κ × α)} (h : (keys entries).Nodup) :
    ofEntries entries = entries := by
  simpa [ofEntries] using putAll_of_nodup (t := []) (by simpa using h)

theorem mem_of_get? {t : Table α κ} {key : κ} {value : α} (h : t.get? key = some value) :
    (key, value) ∈ t := by
  induction t with
  | nil => cases h
  | cons e rest ih =>
      unfold get? at h
      split at h
      · rename_i hkey
        rw [← hkey, ← Option.some.inj h]
        exact List.mem_cons_self ..
      · exact List.mem_cons_of_mem _ (ih h)

theorem mem_put {t : Table α κ} {key : κ} {value : α} {e : κ × α} (h : e ∈ t.put key value) :
    e ∈ t ∨ e = (key, value) := by
  induction t with
  | nil => exact Or.inr (List.mem_singleton.1 h)
  | cons entry rest ih =>
      unfold put at h
      split at h
      · rename_i hkey
        rcases List.mem_cons.1 h with rfl | hrest
        · exact Or.inr (by rw [hkey])
        · exact Or.inl (List.mem_cons_of_mem _ hrest)
      · rcases List.mem_cons.1 h with rfl | hrest
        · exact Or.inl (List.mem_cons_self ..)
        · rcases ih hrest with hold | hnew
          · exact Or.inl (List.mem_cons_of_mem _ hold)
          · exact Or.inr hnew

theorem put_of_get? {t : Table α κ} {key : κ} {value : α} (h : t.get? key = some value) :
    t.put key value = t := by
  induction t with
  | nil => cases h
  | cons e rest ih =>
      unfold get? at h
      unfold put
      split at h
      · rename_i hkey
        rw [if_pos hkey, ← Option.some.inj h]
      · rename_i hkey
        rw [if_neg hkey, ih h]

theorem put_put (t : Table α κ) (key : κ) (value value' : α) :
    (t.put key value).put key value' = t.put key value' := by
  induction t with
  | nil => simp [put]
  | cons e rest ih =>
      by_cases hkey : e.1 = key
      · simp [put, hkey]
      · simp [put, hkey, ih]

theorem get?_append (t u : Table α κ) (key : κ) :
    get? (t ++ u) key = (t.get? key).or (u.get? key) := by
  induction t with
  | nil => rfl
  | cons e rest ih =>
      by_cases hkey : e.1 = key
      · simp [get?, hkey]
      · simp [get?, hkey, ih]

theorem mem_keys_of_get? {t : Table α κ} {key : κ} {value : α} (h : t.get? key = some value) :
    key ∈ t.keys := by
  rw [← has_iff_mem_keys, has, h]
  rfl

theorem exists_get?_of_mem_keys {t : Table α κ} {key : κ} (h : key ∈ t.keys) :
    ∃ value, t.get? key = some value := by
  rw [← has_iff_mem_keys] at h
  exact Option.isSome_iff_exists.mp h

theorem get?_of_not_mem {t : Table α κ} {key : κ} (h : key ∉ t.keys) : t.get? key = none := by
  cases hget : t.get? key with
  | none => rfl
  | some value => exact absurd (mem_keys_of_get? hget) h

theorem keys_prefix_put (t : Table α κ) (key : κ) (value : α) : t.keys <+: (t.put key value).keys := by
  rw [keys_put]
  split
  · exact List.prefix_rfl
  · exact List.prefix_append ..

theorem mem_keys_put_iff {t : Table α κ} {key other : κ} {value : α} :
    other ∈ (t.put key value).keys ↔ other ∈ t.keys ∨ other = key := by
  constructor
  · exact mem_keys_put
  · rintro (hmem | rfl)
    · exact (keys_prefix_put t key value).subset hmem
    · rw [← has_iff_mem_keys, has, get?_put_self]
      rfl

theorem has_eq_of_keys_eq {β : Type} {t : Table α κ} {u : Table β κ} (h : t.keys = u.keys)
    (key : κ) : t.has key = u.has key := by
  rw [Bool.eq_iff_iff, has_iff_mem_keys, has_iff_mem_keys, h]

/-! ## Functions on the values -/

omit [DecidableEq κ] in
theorem keys_map {β : Type} (f : α → β) (t : Table α κ) :
    keys (t.map fun e => (e.1, f e.2)) = t.keys := by
  simp [keys]

theorem get?_map {β : Type} (f : α → β) (t : Table α κ) (key : κ) :
    get? (t.map fun e => (e.1, f e.2)) key = (t.get? key).map f := by
  induction t with
  | nil => rfl
  | cons e rest ih =>
      by_cases h : e.1 = key
      · simp [get?, h]
      · simp [get?, h, ih]

theorem put_map {β : Type} (f : α → β) (t : Table α κ) (key : κ) (value : α) :
    put (t.map fun e => (e.1, f e.2)) key (f value) =
      (t.put key value).map fun e => (e.1, f e.2) := by
  induction t with
  | nil => rfl
  | cons e rest ih =>
      by_cases h : e.1 = key
      · simp [put, h]
      · simp [put, h, ih]

end DocStore.Table
