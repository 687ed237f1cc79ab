import DocStore.Proofs.Table
import DocStore.Settings.Layer

/-!
# Laying one layer over another

What stands at a path when one layer is laid over another
(`Entries.Overlays`). Each entry of the layer above meets the entry below
that has its name, and no other (`get?_overlay_of_some`); where both are
maps, the one is laid over the other. So a path is followed in both
layers at once, until the layer above has no entry, which leaves the one
below to itself, or one that is no map, which hides what is below.
-/

namespace DocStore.Validation

/-! ## Paths -/

namespace Given

def isMap : Given → Bool
  | map _ => true
  | _ => false

/-- The value at a path through nested maps. -/
def resolve (v : Given) : List Key → Option Given
  | [] => some v
  | key :: rest =>
    match v with
    | map entries => (Table.get? entries key).bind (·.resolve rest)
    | _ => none

variable {v w : Given} {entries : Entries} {key : Key} {path : List Key}

theorem exists_map_of_isMap (h : v.isMap = true) : ∃ entries, v = map entries := by
  cases v with
  | map entries => exact ⟨entries, rfl⟩
  | _ => cases h

theorem resolve_map_cons (entries : Entries) (key : Key) (rest : List Key) :
    (map entries).resolve (key :: rest) = (Table.get? entries key).bind (·.resolve rest) := rfl

theorem resolve_of_not_map (h : v.isMap = false) (hpath : path ≠ []) : v.resolve path = none := by
  obtain ⟨key, rest, rfl⟩ := List.exists_cons_of_ne_nil hpath
  cases v with
  | map entries => cases h
  | _ => rfl

theorem resolve_empty (hpath : path ≠ []) : (map []).resolve path = none := by
  obtain ⟨key, rest, rfl⟩ := List.exists_cons_of_ne_nil hpath
  rfl

/-- No map that a path leads to has a key twice. -/
inductive Keyed : Given → Prop where
  | leaf {v : Given} (h : v.isMap = false) : Keyed v
  | map {entries : Entries} (nodup : entries.keys.Nodup)
      (values : ∀ e ∈ entries, Keyed e.2) : Keyed (map entries)

theorem Keyed.nodup (h : (Given.map entries).Keyed) : entries.keys.Nodup := by
  cases h with
  | leaf h => cases h
  | map nodup values => exact nodup

theorem Keyed.of_get? (h : (Given.map entries).Keyed) (hv : Table.get? entries key = some v) :
    v.Keyed := by
  cases h with
  | leaf h => cases h
  | map nodup values => exact values _ (Table.mem_of_get? hv)

theorem overlay_of_not_map (h : v.isMap = false) (below : Option Given) :
    Given.overlay below v = v := by
  cases v with
  | map entries => cases h
  | _ => simp only [Given.overlay]

theorem overlay_none (v : Given) : Given.overlay none v = v := by
  cases v <;> simp only [Given.overlay]

end Given

open Given

/-! ## Entries -/

namespace Entries

variable {base layer : Entries} {key : Key} {v : Given}

theorem overlay_cons (base : Entries) (key : Key) (v : Given) (rest : List (Key × Given)) :
    base.overlay ((key, v) :: rest) =
      Entries.overlay (base.put key (Given.overlay (base.get? key) v)) rest := by
  rw [Entries.overlay]

theorem get?_overlay_of_none (h : Table.get? layer key = none) :
    Table.get? (base.overlay layer) key = base.get? key := by
  induction layer generalizing base with
  | nil => rw [Entries.overlay]
  | cons e rest ih =>
      obtain ⟨name, w⟩ := e
      rw [Table.get?] at h
      split at h
      · cases h
      · rename_i hne
        rw [overlay_cons, ih h, Table.get?_put_of_ne _ _ (Ne.symm hne)]

theorem get?_overlay_of_some (hnodup : layer.keys.Nodup) (h : Table.get? layer key = some v) :
    Table.get? (base.overlay layer) key = some (Given.overlay (base.get? key) v) := by
  induction layer generalizing base with
  | nil => cases h
  | cons e rest ih =>
      obtain ⟨name, w⟩ := e
      obtain ⟨hname, hrest⟩ := List.nodup_cons.mp hnodup
      rw [Table.get?] at h
      rw [overlay_cons]
      split at h
      · rename_i heq
        subst heq
        obtain rfl := Option.some.inj h
        rw [get?_overlay_of_none (Table.get?_of_not_mem hname), Table.get?_put_self]
      · rename_i hne
        rw [ih hrest h, Table.get?_put_of_ne _ _ (Ne.symm hne)]

/-- A layer whose entries all stand already changes nothing. -/
theorem overlay_eq_self (h : ∀ e ∈ layer, ∃ v, base.get? e.1 = some v ∧
    Given.overlay (some v) e.2 = v) : base.overlay layer = base := by
  induction layer with
  | nil => rw [Entries.overlay]
  | cons e rest ih =>
      obtain ⟨⟨v, hget, hover⟩, hrest⟩ := List.forall_mem_cons.mp h
      rw [overlay_cons, hget, hover, Table.put_of_get? hget, ih hrest]

/-- Entries that are all new go behind those that are there. -/
theorem overlay_eq_append (hnodup : (Table.keys (base ++ layer)).Nodup) :
    base.overlay layer = base ++ layer := by
  induction layer generalizing base with
  | nil => rw [Entries.overlay, List.append_nil]
  | cons e rest ih =>
      obtain ⟨key, v⟩ := e
      have hkey : key ∉ base.keys := by
        intro hmem
        rw [Table.keys, List.map_append] at hnodup
        exact (List.nodup_append.mp hnodup).2.2 key hmem key (by simp) rfl
      have hassoc : base ++ (key, v) :: rest = base ++ [(key, v)] ++ rest := by simp
      rw [hassoc] at hnodup ⊢
      rw [overlay_cons, Table.get?_of_not_mem hkey, overlay_none, Table.put_of_not_mem v hkey,
        ih hnodup]

end Entries

namespace Given

variable {layer : Entries}

/-- The entries of a map; none of anything else. -/
def entriesOf : Option Given → Entries
  | some (map inner) => inner
  | _ => []

theorem overlay_map (below : Option Given) (hnodup : layer.keys.Nodup) :
    Given.overlay below (map layer) = map ((entriesOf below).overlay layer) := by
  have hnil : Entries.overlay [] layer = layer := Entries.overlay_eq_append hnodup
  match below with
  | some (map inner) => simp only [Given.overlay, entriesOf]
  | none | some null | some (bool _) | some (int _) | some (float _) | some (text _)
  | some (list _) | some (other _) => simp only [Given.overlay, entriesOf, hnil]

/-- Nothing is below what is no map, nor below an empty one. -/
theorem resolve_entriesOf (below : Option Given) {path : List Key} (h : path ≠ []) :
    (map (entriesOf below)).resolve path = below.bind (·.resolve path) := by
  match below with
  | some (map inner) => rfl
  | none => exact resolve_empty h
  | some null | some (bool _) | some (int _) | some (float _) | some (text _) | some (list _)
  | some (other _) => exact (resolve_empty h).trans (resolve_of_not_map rfl h).symm

/-- Over what it has been laid over already, a value changes nothing. -/
theorem overlay_overlay {v : Given} (h : v.Keyed) (below : Option Given) :
    Given.overlay (some (Given.overlay below v)) v = Given.overlay below v := by
  induction h generalizing below with
  | leaf h => rw [overlay_of_not_map h, overlay_of_not_map h]
  | @map layer hnodup values ih =>
      rw [overlay_map below hnodup, overlay_map _ hnodup]
      refine congrArg map (Entries.overlay_eq_self fun e he => ?_)
      have hget := Table.get?_of_mem hnodup he
      exact ⟨_, Entries.get?_overlay_of_some hnodup hget, ih e he _⟩

end Given

/-! ## What stands at a path -/

/-- The entries are those of one layer over another, as far as paths tell,
and the layer can be laid over them again. -/
structure Entries.Overlays (base layer entries : Entries) : Prop where
  /-- What the layer says at the path counts. -/
  sets : ∀ path v, (map layer).resolve path = some v → v.isMap = false →
    (map entries).resolve path = some v
  /-- There is nothing behind what is no map. -/
  hides : ∀ path front v, front <+: path → front ≠ path →
    (map layer).resolve front = some v → v.isMap = false → (map entries).resolve path = none
  /-- Where the layer says nothing, the base does. -/
  passes : ∀ path, (map layer).resolve path = none →
    (∀ front v, front <+: path → front ≠ path → (map layer).resolve front = some v →
      v.isMap = true) → (map entries).resolve path = (map base).resolve path
  again : entries.overlay layer = entries

namespace Entries

variable {base layer : Entries} {key : Key} {path : List Key} {v : Given}

/-- A path goes on in the map above and the one below it. -/
theorem resolve_overlay_cons {inner : Entries} (hlayer : (Given.map layer).Keyed)
    (h : Table.get? layer key = some (.map inner)) (path : List Key) :
    (Given.map (base.overlay layer)).resolve (key :: path) =
      (Given.map ((entriesOf (base.get? key)).overlay inner)).resolve path := by
  rw [resolve_map_cons, get?_overlay_of_some hlayer.nodup h,
    overlay_map _ (hlayer.of_get? h).nodup, Option.bind_some]

theorem resolve_overlay_of_set (hlayer : (Given.map layer).Keyed)
    (h : (Given.map layer).resolve path = some v) (hv : v.isMap = false) :
    (Given.map (base.overlay layer)).resolve path = some v := by
  induction path generalizing base layer with
  | nil =>
      obtain rfl := Option.some.inj h
      cases hv
  | cons key rest ih =>
      rw [resolve_map_cons, Option.bind_eq_some_iff] at h
      obtain ⟨child, hchild, hrest⟩ := h
      cases hmap : child.isMap with
      | true =>
          obtain ⟨inner, rfl⟩ := exists_map_of_isMap hmap
          rw [resolve_overlay_cons hlayer hchild]
          exact ih (hlayer.of_get? hchild) hrest
      | false =>
          rw [resolve_map_cons, get?_overlay_of_some hlayer.nodup hchild,
            overlay_of_not_map hmap]
          exact hrest

theorem resolve_overlay_of_hidden (hlayer : (Given.map layer).Keyed) {front : List Key}
    (hfront : front <+: path) (hne : front ≠ path)
    (h : (Given.map layer).resolve front = some v) (hv : v.isMap = false) :
    (Given.map (base.overlay layer)).resolve path = none := by
  induction front generalizing base layer path with
  | nil =>
      obtain rfl := Option.some.inj h
      cases hv
  | cons key front ih =>
      obtain ⟨rest, rfl⟩ := hfront
      rw [resolve_map_cons, Option.bind_eq_some_iff] at h
      obtain ⟨child, hchild, hrest⟩ := h
      have hne : front ≠ front ++ rest := fun heq => hne (congrArg (key :: ·) heq)
      have hnil : front ++ rest ≠ [] := by
        intro hnil
        obtain ⟨rfl, rfl⟩ := List.append_eq_nil_iff.mp hnil
        exact hne rfl
      cases hmap : child.isMap with
      | true =>
          obtain ⟨inner, rfl⟩ := exists_map_of_isMap hmap
          rw [List.cons_append, resolve_overlay_cons hlayer hchild]
          exact ih (hlayer.of_get? hchild) (List.prefix_append ..) hne hrest
      | false =>
          rw [List.cons_append, resolve_map_cons, get?_overlay_of_some hlayer.nodup hchild,
            overlay_of_not_map hmap]
          exact resolve_of_not_map hmap hnil

theorem resolve_overlay_of_unset (hlayer : (Given.map layer).Keyed)
    (h : (Given.map layer).resolve path = none)
    (hfronts : ∀ front v, front <+: path → front ≠ path →
      (Given.map layer).resolve front = some v → v.isMap = true) :
    (Given.map (base.overlay layer)).resolve path = (Given.map base).resolve path := by
  induction path generalizing base layer with
  | nil => cases h
  | cons key rest ih =>
      cases hchild : Table.get? layer key with
      | none => rw [resolve_map_cons, get?_overlay_of_none hchild, resolve_map_cons]
      | some child =>
          have hresolve : ∀ front, (Given.map layer).resolve (key :: front) = child.resolve front :=
            fun front => by rw [resolve_map_cons, hchild, Option.bind_some]
          rw [hresolve] at h
          have hnil : rest ≠ [] := by
            rintro rfl
            cases h
          have hmap : child.isMap = true :=
            hfronts [key] child (List.prefix_append [key] rest) (by simpa using hnil.symm)
              (hresolve [])
          obtain ⟨inner, rfl⟩ := exists_map_of_isMap hmap
          rw [resolve_overlay_cons hlayer hchild, resolve_map_cons, ← resolve_entriesOf _ hnil]
          refine ih (hlayer.of_get? hchild) h fun front v hfront hne hv => ?_
          exact hfronts (key :: front) v (List.cons_prefix_cons.mpr ⟨rfl, hfront⟩)
            (fun heq => hne (List.cons.inj heq).2) ((hresolve front).trans hv)

/-- What laying one layer over another does. -/
theorem overlays_overlay (base : Entries) (hlayer : (Given.map layer).Keyed) :
    Overlays base layer (base.overlay layer) where
  sets _ _ := resolve_overlay_of_set hlayer
  hides _ _ _ := resolve_overlay_of_hidden hlayer
  passes _ := resolve_overlay_of_unset hlayer
  again := by
    have h := Given.overlay_overlay hlayer (some (.map base))
    rw [overlay_map _ hlayer.nodup, overlay_map _ hlayer.nodup] at h
    exact Given.map.inj h

end Entries

end DocStore.Validation
