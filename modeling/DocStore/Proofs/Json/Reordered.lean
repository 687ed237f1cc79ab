import DocStore.Proofs.Json.Path

/-!
# Values that differ in the order of keys

Two values may have the keys of their objects in different orders, at any
depth, and be the same otherwise (`Json.Reordered`). At every path, the
one is then defined as the other is, by values that again differ in the
order of keys only (`Json.Reordered.resolve`).
-/

namespace DocStore

/-- The values are the same up to the order of keys in objects. -/
inductive Json.Reordered : Json → Json → Prop
  | refl (v : Json) : Reordered v v
  | arr {xs ys : List Json} (length : xs.length = ys.length)
      (elements : ∀ (i : Nat) v w, xs[i]? = some v → ys[i]? = some w → Reordered v w) :
      Reordered (.arr xs) (.arr ys)
  | obj {fields fields' : Fields} (nodup : fields.keys.Nodup) (keys : fields.keys.Perm fields'.keys)
      (values : ∀ key v w, Table.get? fields key = some v → Table.get? fields' key = some w →
        Reordered v w) :
      Reordered (.obj fields) (.obj fields')

namespace Json.Reordered

variable {v w x : Json}

/-- The fields in another order. -/
theorem of_perm {fields fields' : Fields} (nodup : fields.keys.Nodup) (h : fields.Perm fields') :
    (Json.obj fields).Reordered (.obj fields') := by
  have hkeys : fields.keys.Perm fields'.keys := h.map _
  refine .obj nodup hkeys fun key v w hv hw => ?_
  have hv' := Table.get?_of_mem (hkeys.nodup_iff.mp nodup) (h.mem_iff.mp (Table.mem_of_get? hv))
  obtain rfl := Option.some.inj (hv'.symm.trans hw)
  exact .refl v

theorem field? {key : String} (h : v.Reordered w) (hv : v.field? key = some x) :
    ∃ y, w.field? key = some y ∧ x.Reordered y := by
  cases h with
  | refl v => exact ⟨x, hv, .refl x⟩
  | arr _ _ => cases hv
  | @obj fields fields' _ keys values =>
      have hkey : key ∈ Table.keys fields' := keys.mem_iff.mp (Table.mem_keys_of_get? hv)
      obtain ⟨y, hy⟩ := Table.exists_get?_of_mem_keys hkey
      exact ⟨y, hy, values key x y hv hy⟩

theorem resolve {path : List String} (h : v.Reordered w) (hv : v.resolve path = some x) :
    ∃ y, w.resolve path = some y ∧ x.Reordered y := by
  induction path generalizing v w with
  | nil => exact ⟨w, rfl, Option.some.inj hv ▸ h⟩
  | cons key path ih =>
      rw [resolve_cons, Option.bind_eq_some_iff] at hv
      obtain ⟨child, hchild, hv⟩ := hv
      obtain ⟨child', hchild', hreordered⟩ := h.field? hchild
      rw [resolve_cons, hchild']
      exact ih hreordered hv

end Json.Reordered

end DocStore
