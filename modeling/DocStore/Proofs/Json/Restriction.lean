import DocStore.Proofs.Json.Reordered
import Mathlib.Data.Set.Insert

/-!
# Restriction to paths

A restriction of a value has what the value has at some paths, and the
objects on the way to them with no other keys (`Restriction`). Up to the
order of keys it is determined by the paths (`Restriction.reordered`).

Writing what stands in the value at one more path restricts the value to
the paths with that one (`Restriction.setPath`), by induction on the path.
Where an earlier path ends on the way, its value has been taken whole, and
the write changes nothing; else the object on the way is a restriction of
the value's own, to the paths that lead below it.
-/

namespace DocStore

/-- The second value is what the first one has at the paths, and on the way
to them. -/
inductive Restriction : Set (List String) → Json → Json → Prop
  | whole {paths : Set (List String)} {d : Json} (ends : [] ∈ paths) : Restriction paths d d
  | part {paths : Set (List String)} {d : Json} {fields : Fields} (ends : [] ∉ paths)
      (nodup : fields.keys.Nodup) (keys : ∀ key, key ∈ fields.keys ↔ ∃ path, key :: path ∈ paths)
      (defined : ∀ key ∈ fields.keys, ∃ v, d.field? key = some v)
      (children : ∀ key v child, d.field? key = some v → Table.get? fields key = some child →
        Restriction {path | key :: path ∈ paths} v child) :
      Restriction paths d (.obj fields)

namespace Restriction

variable {paths : Set (List String)} {d r v w : Json} {fields inner : Fields}

/-! ## What a restriction has -/

theorem resolve_of_mem (h : Restriction paths d r) {path : List String} (hpath : path ∈ paths) :
    r.resolve path = d.resolve path := by
  induction h generalizing path with
  | whole _ => rfl
  | @part paths d fields ends _ keys defined _ ih =>
      match path with
      | [] => exact absurd hpath ends
      | key :: rest =>
          have hkey : key ∈ fields.keys := (keys key).mpr ⟨rest, hpath⟩
          obtain ⟨v, hv⟩ := defined key hkey
          obtain ⟨child, hchild⟩ := Table.exists_get?_of_mem_keys hkey
          rw [resolve_obj_cons, resolve_cons, hchild, hv]
          exact ih key v child hv hchild hpath

theorem defined_of_resolve (h : Restriction paths d r) {path : List String}
    (hpath : r.resolve path = some w) : ∃ v, d.resolve path = some v := by
  induction h generalizing path with
  | whole _ => exact ⟨w, hpath⟩
  | @part paths d fields _ _ _ defined _ ih =>
      match path with
      | [] => exact ⟨d, rfl⟩
      | key :: rest =>
          rw [resolve_obj_cons, Option.bind_eq_some_iff] at hpath
          obtain ⟨child, hchild, hrest⟩ := hpath
          obtain ⟨v, hv⟩ := defined key (Table.mem_keys_of_get? hchild)
          rw [resolve_cons, hv]
          exact ih key v child hv hchild hrest

/-- Nothing else is there: what has a value leads to one of the paths, or
starts with one. -/
theorem not_apart_of_resolve (h : Restriction paths d r) {path : List String} (hne : path ≠ [])
    (hpath : r.resolve path = some w) : ∃ p ∈ paths, ¬ Apart p path := by
  induction h generalizing path with
  | whole ends => exact ⟨[], ends, fun hapart => hapart.1 (List.nil_prefix ..)⟩
  | @part paths d fields _ _ keys defined _ ih =>
      match path, hne with
      | key :: rest, _ =>
          rw [resolve_obj_cons, Option.bind_eq_some_iff] at hpath
          obtain ⟨child, hchild, hrest⟩ := hpath
          have hkey : key ∈ fields.keys := Table.mem_keys_of_get? hchild
          obtain ⟨v, hv⟩ := defined key hkey
          by_cases hnil : rest = []
          · subst hnil
            obtain ⟨p, hp⟩ := (keys key).mp hkey
            refine ⟨key :: p, hp, fun hapart => hapart.2 ?_⟩
            exact List.cons_prefix_cons.mpr ⟨rfl, List.nil_prefix ..⟩
          · obtain ⟨p, hp, hnot⟩ := ih key v child hv hchild hnil hrest
            refine ⟨key :: p, hp, fun hapart => hnot ?_⟩
            exact (apart_cons.mp hapart).resolve_left fun hne => hne rfl

theorem reordered {r' : Json} (h : Restriction paths d r) (h' : Restriction paths d r') :
    r.Reordered r' := by
  induction h generalizing r' with
  | @whole paths d ends =>
      cases h' with
      | whole _ => exact .refl d
      | part ends' => exact absurd ends ends'
  | @part paths d fields ends nodup keys defined _ ih =>
      cases h' with
      | whole ends' => exact absurd ends' ends
      | @part _ _ fields' _ nodup' keys' _ children' =>
          have hperm : fields.keys.Perm fields'.keys := by
            refine (List.perm_ext_iff_of_nodup nodup nodup').mpr fun key => ?_
            rw [keys key, keys' key]
          refine .obj nodup hperm fun key child child' hchild hchild' => ?_
          obtain ⟨v, hv⟩ := defined key (Table.mem_keys_of_get? hchild)
          exact ih key v child hv hchild (children' key v child' hv hchild')

/-! ## One more path -/

theorem empty (d : Json) : Restriction ∅ d (.obj []) := by
  refine .part (fun h => h) List.nodup_nil ?_ ?_ ?_
  · intro key
    exact ⟨fun h => (List.not_mem_nil h).elim, fun ⟨_, h⟩ => h.elim⟩
  · intro key hkey
    exact (List.not_mem_nil hkey).elim
  · intro key v child _ hchild
    cases hchild

theorem exists_obj (h : Restriction paths (.obj inner) r) : ∃ fields, r = .obj fields := by
  cases h with
  | whole _ => exact ⟨inner, rfl⟩
  | part => exact ⟨_, rfl⟩

/-- The object on the way is restricted to what leads below it; one that
is not there yet is restricted to nothing. -/
theorem descend {segment : String} (h : Restriction paths d (.obj fields)) (hends : [] ∉ paths)
    (hv : d.field? segment = some (.obj inner)) :
    Restriction {path | segment :: path ∈ paths} (.obj inner) (.obj (fields.below segment)) := by
  cases h with
  | whole ends => exact absurd ends hends
  | part _ _ keys _ children =>
      cases hchild : Table.get? fields segment with
      | some child =>
          have hrestriction := children segment _ child hv hchild
          obtain ⟨inner', rfl⟩ := hrestriction.exists_obj
          rwa [Fields.below_of_get? hchild]
      | none =>
          have hnone : {path | segment :: path ∈ paths} = ∅ := by
            refine Set.eq_empty_of_forall_notMem fun path hpath => ?_
            obtain ⟨child, hsome⟩ := Table.exists_get?_of_mem_keys ((keys segment).mpr ⟨path, hpath⟩)
            rw [hchild] at hsome
            cases hsome
          rw [hnone, Fields.below, hchild]
          exact empty _

/-- A field is restricted further; the others stay as they are. -/
theorem put {segment : String} {rest : List String} {child : Json}
    (h : Restriction paths d (.obj fields)) (hends : [] ∉ paths)
    (hv : d.field? segment = some v)
    (hchild : Restriction {path | segment :: path ∈ insert (segment :: rest) paths} v child) :
    Restriction (insert (segment :: rest) paths) d (.obj (fields.put segment child)) := by
  cases h with
  | whole ends => exact absurd ends hends
  | part _ nodup keys defined children =>
      have hother : ∀ key, key ≠ segment →
          {path | key :: path ∈ insert (segment :: rest) paths} = {path | key :: path ∈ paths} := by
        intro key hkey
        ext path
        simp [hkey]
      refine .part (by simpa using hends) (Table.nodup_keys_put segment child nodup) ?_ ?_ ?_
      · intro key
        rw [Table.mem_keys_put_iff, keys key]
        by_cases hkey : key = segment
        · subst hkey
          simp
        · simp [hkey]
      · intro key hkey
        rcases Table.mem_keys_put_iff.mp hkey with hkey | rfl
        · exact defined key hkey
        · exact ⟨v, hv⟩
      · intro key w child' hw hget
        by_cases hkey : key = segment
        · subst hkey
          rw [Table.get?_put_self] at hget
          rw [← Option.some.inj hget, ← Option.some.inj (hv.symm.trans hw)]
          exact hchild
        · rw [Table.get?_put_of_ne _ _ hkey] at hget
          rw [hother key hkey]
          exact children key w child' hw hget

theorem setPath_of_ends {segment : String} {rest : List String}
    (h : Restriction paths d (.obj fields)) (hends : [] ∈ paths)
    (hv : d.resolve (segment :: rest) = some v) :
    Restriction (insert (segment :: rest) paths) d (.obj (fields.setPath segment rest v)) := by
  cases h with
  | whole _ =>
      rw [setPath_of_resolve hv]
      exact .whole (.inr hends)
  | part hnot => exact absurd hends hnot

theorem setPath {segment : String} {rest : List String} (h : Restriction paths d (.obj fields))
    (hv : d.resolve (segment :: rest) = some v) :
    Restriction (insert (segment :: rest) paths) d (.obj (fields.setPath segment rest v)) := by
  induction rest generalizing paths d fields segment with
  | nil =>
      by_cases hends : [] ∈ paths
      · exact h.setPath_of_ends hends hv
      · rw [resolve_cons, Option.bind_eq_some_iff] at hv
        obtain ⟨w, hw, hvalue⟩ := hv
        obtain rfl : w = v := Option.some.inj hvalue
        exact h.put hends hw (.whole (.inl rfl))
  | cons next rest ih =>
      by_cases hends : [] ∈ paths
      · exact h.setPath_of_ends hends hv
      · rw [resolve_cons, Option.bind_eq_some_iff] at hv
        obtain ⟨w, hw, hvalue⟩ := hv
        obtain ⟨inner, rfl⟩ := exists_obj_of_resolve hvalue
        have hpaths : {path | segment :: path ∈ insert (segment :: next :: rest) paths} =
            insert (next :: rest) {path | segment :: path ∈ paths} := by
          ext path
          simp
        rw [setPath_cons]
        refine h.put hends hw ?_
        rw [hpaths]
        exact ih (h.descend hends hw) hvalue

end Restriction

end DocStore
