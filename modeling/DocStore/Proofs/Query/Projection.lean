import DocStore.Proofs.Json.Restriction
import DocStore.Proofs.Run
import DocStore.Query.Execution

/-!
# Selected parts of documents

Selecting parts of a document is one write after the other into an object
that is empty at first (`projected`); the `id` is written as if it had been
selected in front. Two facts about a single write carry over to all of
them:

- What is read apart from its path stays as it was. So the value of an
  item is there in the end unless a later write meets its path
  (`projectDocument_survives`).
- Without names of their own, items write what stands at the same path in
  the document, so each write restricts the document to one more path. The
  result is then the restriction to the selected paths, in whatever order
  they are selected and however they overlap (`projectDocument_restricts`).
-/

namespace DocStore

variable {items : List SelectItem} {item : SelectItem} {d : Json} {fields : Fields}

/-! ## Writes -/

/-- The document has what the item selects. -/
def SelectItem.Found (item : SelectItem) (d : Json) : Prop :=
  ∃ v, d.resolve item.segments = some v

/-- The result with what the item selects. -/
def written (d : Json) (fields : Fields) (item : SelectItem) : Fields :=
  match d.resolve item.segments, item.output with
  | some v, segment :: rest => fields.setPath segment rest v
  | _, _ => fields

/-- The `id`, selected as it comes along. -/
def SelectItem.identity : SelectItem :=
  ⟨"id", ["id"], none⟩

/-- What is selected from a document, and its `id`. -/
def projected (items : List SelectItem) (d : Json) : Fields :=
  (SelectItem.identity :: items).foldl (written d) []

theorem written_of_resolve {v : Json} {segment : String} {rest : List String}
    (hv : d.resolve item.segments = some v) (houtput : item.output = segment :: rest) :
    written d fields item = fields.setPath segment rest v := by
  rw [written, hv, houtput]

theorem SelectItem.resolve_of_not_found (h : ¬ item.Found d) : d.resolve item.segments = none :=
  Option.eq_none_iff_forall_ne_some.mpr fun v hv => h ⟨v, hv⟩

theorem written_of_not_found (h : ¬ item.Found d) : written d fields item = fields := by
  rw [written, SelectItem.resolve_of_not_found h]

theorem projectItem_eq (houtput : item.output ≠ []) :
    projectItem d fields item = .ok (written d fields item) := by
  obtain ⟨segment, rest, hcons⟩ := List.exists_cons_of_ne_nil houtput
  unfold projectItem written
  cases d.resolve item.segments with
  | none => rfl
  | some v =>
      rw [hcons]
      rfl

theorem foldlM_projectItem (houtput : ∀ item ∈ items, item.output ≠ []) :
    items.foldlM (projectItem d) fields = .ok (items.foldl (written d) fields) := by
  induction items generalizing fields with
  | nil => rfl
  | cons item items ih =>
      rw [List.foldlM_cons, projectItem_eq (houtput item (List.mem_cons_self ..)), ok_bind]
      exact ih fun later hlater => houtput later (List.mem_cons_of_mem _ hlater)

theorem projectDocument_eq (houtput : ∀ item ∈ items, item.output ≠ []) :
    projectDocument items d = .ok (.obj (projected items d)) := by
  rw [projectDocument, projected, List.foldl_cons, written, SelectItem.identity, resolve_cons]
  cases d.field? "id" <;>
    · rw [foldlM_projectItem houtput]
      rfl

/-! ## What writes leave alone -/

theorem resolve_written_of_apart {path : List String} (h : item.Found d → Apart item.output path) :
    (Json.obj (written d fields item)).resolve path = (Json.obj fields).resolve path := by
  by_cases hfound : item.Found d
  · obtain ⟨v, hv⟩ := hfound
    have hapart := h ⟨v, hv⟩
    obtain ⟨segment, rest, hcons⟩ := List.exists_cons_of_ne_nil hapart.symm.ne_nil
    rw [written_of_resolve hv hcons]
    exact resolve_setPath_of_apart (hcons ▸ hapart)
  · rw [written_of_not_found hfound]

theorem resolve_foldl_written_of_apart {path : List String}
    (h : ∀ item ∈ items, item.Found d → Apart item.output path) :
    (Json.obj (items.foldl (written d) fields)).resolve path = (Json.obj fields).resolve path := by
  induction items generalizing fields with
  | nil => rfl
  | cons item items ih =>
      rw [List.foldl_cons, ih fun later hlater => h later (List.mem_cons_of_mem _ hlater)]
      exact resolve_written_of_apart (h item (List.mem_cons_self ..))

/-- The `id` is the document's at first. -/
theorem resolve_written_identity (d : Json) :
    (Json.obj (written d [] SelectItem.identity)).resolve ["id"] = d.resolve ["id"] := by
  by_cases hfound : SelectItem.identity.Found d
  · obtain ⟨v, hv⟩ := hfound
    rw [written_of_resolve hv rfl, resolve_setPath_self]
    exact hv.symm
  · rw [written_of_not_found hfound, resolve_empty (List.cons_ne_nil _ _)]
    exact (SelectItem.resolve_of_not_found hfound).symm

theorem mem_keys_written {key : String} (h : key ∈ (written d fields item).keys) :
    key ∈ fields.keys ∨ item.Found d ∧ item.output.head? = some key := by
  unfold written at h
  split at h
  · rename_i v segment rest hv hcons
    obtain ⟨child, hput⟩ := exists_setPath_eq_put fields segment rest v
    rw [hput] at h
    rcases Table.mem_keys_put h with h | rfl
    · exact .inl h
    · exact .inr ⟨⟨v, hv⟩, by rw [hcons]; rfl⟩
  · exact .inl h

theorem mem_keys_foldl_written {key : String} (h : key ∈ (items.foldl (written d) fields).keys) :
    key ∈ fields.keys ∨ ∃ item ∈ items, item.Found d ∧ item.output.head? = some key := by
  induction items generalizing fields with
  | nil => exact .inl h
  | cons item items ih =>
      rcases ih h with hkey | ⟨later, hlater, hwrites⟩
      · rcases mem_keys_written hkey with hkey | hwrites
        · exact .inl hkey
        · exact .inr ⟨item, List.mem_cons_self .., hwrites⟩
      · exact .inr ⟨later, List.mem_cons_of_mem _ hlater, hwrites⟩

theorem keys_prefix_foldl_written (items : List SelectItem) (d : Json) (fields : Fields) :
    fields.keys <+: (items.foldl (written d) fields).keys := by
  induction items generalizing fields with
  | nil => exact List.prefix_rfl
  | cons item items ih =>
      refine List.IsPrefix.trans ?_ (ih (written d fields item))
      unfold written
      split
      · rename_i v segment rest _ _
        obtain ⟨child, hput⟩ := exists_setPath_eq_put fields segment rest v
        rw [hput]
        exact Table.keys_prefix_put ..
      · exact List.prefix_rfl

/-! ## With names -/

theorem SelectItem.output_ne_nil (h : item.segments ≠ [] ∨ item.alias? ≠ none) :
    item.output ≠ [] := by
  unfold SelectItem.output
  cases hname : item.alias? with
  | some name => exact List.cons_ne_nil _ _
  | none => exact h.resolve_right fun hne => hne hname

/-- **Selected values survive what is not written over them.** The value of
an item is found where the item writes it, if no later item that finds a
value writes at, above or below; so is the `id` of the document. Nothing is
invented. -/
theorem projectDocument_survives (items : List SelectItem) (d : Json)
    (hitems : ∀ item ∈ items, item.segments ≠ [] ∨ item.alias? ≠ none) :
    ∃ fields, projectDocument items d = .ok (.obj fields) ∧
      (∀ before item after v, items = before ++ item :: after → d.resolve item.segments = some v →
        (∀ later ∈ after, later.Found d → Apart later.output item.output) →
        (Json.obj fields).resolve item.output = some v) ∧
      ((∀ item ∈ items, item.Found d → ¬ ["id"] <+: item.output) →
        (Json.obj fields).resolve ["id"] = d.resolve ["id"]) ∧
      ∀ key ∈ Table.keys fields,
        key = "id" ∨ ∃ item ∈ items, item.Found d ∧ item.output.head? = some key := by
  have houtput : ∀ item ∈ items, item.output ≠ [] :=
    fun item hitem => SelectItem.output_ne_nil (hitems item hitem)
  refine ⟨projected items d, projectDocument_eq houtput, ?_, ?_, ?_⟩
  · intro before item after v hsplit hv hlater
    subst hsplit
    have hne : item.output ≠ [] := houtput item (by simp)
    obtain ⟨segment, rest, hcons⟩ := List.exists_cons_of_ne_nil hne
    rw [projected, ← List.cons_append, List.foldl_append, List.foldl_cons]
    rw [resolve_foldl_written_of_apart hlater, written_of_resolve hv hcons, hcons]
    exact resolve_setPath_self ..
  · intro hid
    have hapart : ∀ item ∈ items, item.Found d → Apart item.output ["id"] := by
      intro item hitem hfound
      refine ⟨fun hprefix => ?_, hid item hitem hfound⟩
      obtain ⟨segment, rest, hcons⟩ := List.exists_cons_of_ne_nil (houtput item hitem)
      rw [hcons, List.cons_prefix_cons, List.prefix_nil] at hprefix
      refine hid item hitem hfound ?_
      rw [hcons, hprefix.1]
      exact List.cons_prefix_cons.mpr ⟨rfl, List.nil_prefix ..⟩
    rw [projected, List.foldl_cons, resolve_foldl_written_of_apart hapart]
    exact resolve_written_identity d
  · intro key hkey
    rcases mem_keys_foldl_written hkey with hkey | ⟨item, hitem, hfound, hhead⟩
    · exact (List.not_mem_nil hkey).elim
    · rcases List.mem_cons.mp hitem with rfl | hitem
      · exact .inl (Option.some.inj hhead).symm
      · exact .inr ⟨item, hitem, hfound, hhead⟩

/-- A nested value is named like the object that it comes from, and the
document's own city stays beside it. -/
theorem projectDocument_survives_nested :
    let items : List SelectItem := [⟨"c.address", ["address"], none⟩, ⟨"c.city", ["city"], none⟩,
      ⟨"c.address.zip", ["address", "zip"], some "address"⟩]
    let d : Json := .obj [("id", .str "1"), ("city", .str "Oslo"),
      ("address", .obj [("zip", .str "0150")])]
    ∃ fields, projectDocument items d = .ok (.obj fields) ∧
      (Json.obj fields).resolve ["address"] = some (.str "0150") ∧
      (Json.obj fields).resolve ["city"] = some (.str "Oslo") := by
  intro items d
  obtain ⟨fields, hfields, hsurvives, -⟩ := projectDocument_survives items d (by decide)
  have hafter : ∀ later ∈ items.drop 2, later.Found d → Apart later.output ["city"] := by
    intro later hlater _
    obtain rfl := List.mem_singleton.mp hlater
    decide
  exact ⟨fields, hfields,
    hsurvives (items.take 2) _ [] _ rfl rfl fun _ hlater => (List.not_mem_nil hlater).elim,
    hsurvives (items.take 1) _ (items.drop 2) _ rfl rfl hafter⟩

/-! ## Without names -/

/-- The paths that the items select and the document has. -/
def selectedPaths (items : List SelectItem) (d : Json) : Set (List String) :=
  {path | (∃ item ∈ items, item.segments = path) ∧ ∃ v, d.resolve path = some v}

theorem mem_selectedPaths {path : List String} :
    path ∈ selectedPaths items d ↔
      (∃ item ∈ items, item.segments = path) ∧ ∃ v, d.resolve path = some v := Iff.rfl

/-- The item selects a part of the document, under the name that it has
there. -/
def SelectItem.Plain (item : SelectItem) : Prop :=
  item.alias? = none ∧ item.segments ≠ []

theorem SelectItem.Plain.output_eq (h : item.Plain) : item.output = item.segments := by
  rw [SelectItem.output, h.1]

theorem selectedPaths_cons_of_found (h : item.Found d) :
    selectedPaths (item :: items) d = insert item.segments (selectedPaths items d) := by
  ext path
  simp only [Set.mem_insert_iff, mem_selectedPaths, List.mem_cons, exists_eq_or_imp]
  constructor
  · rintro ⟨rfl | hitems, hpath⟩
    · exact .inl rfl
    · exact .inr ⟨hitems, hpath⟩
  · rintro (rfl | ⟨hitems, hpath⟩)
    · exact ⟨.inl rfl, h⟩
    · exact ⟨.inr hitems, hpath⟩

theorem selectedPaths_cons_of_not_found (h : ¬ item.Found d) :
    selectedPaths (item :: items) d = selectedPaths items d := by
  ext path
  simp only [mem_selectedPaths, List.mem_cons, exists_eq_or_imp]
  constructor
  · rintro ⟨rfl | hitems, hpath⟩
    · exact absurd hpath h
    · exact ⟨hitems, hpath⟩
  · rintro ⟨hitems, hpath⟩
    exact ⟨.inr hitems, hpath⟩

theorem selectedPaths_perm {items' : List SelectItem} (h : items'.Perm items) :
    selectedPaths items' d = selectedPaths items d := by
  simp only [selectedPaths, h.mem_iff]

theorem restriction_foldl_written {paths : Set (List String)}
    (h : Restriction paths d (.obj fields)) (hplain : ∀ item ∈ items, item.Plain) :
    Restriction (paths ∪ selectedPaths items d) d (.obj (items.foldl (written d) fields)) := by
  induction items generalizing paths fields with
  | nil => simpa [selectedPaths] using h
  | cons item items ih =>
      have hitem : item.Plain := hplain item (List.mem_cons_self ..)
      have hrest : ∀ later ∈ items, later.Plain :=
        fun later hlater => hplain later (List.mem_cons_of_mem _ hlater)
      rw [List.foldl_cons]
      by_cases hfound : item.Found d
      · rw [selectedPaths_cons_of_found hfound, Set.union_insert, ← Set.insert_union]
        obtain ⟨v, hv⟩ := hfound
        obtain ⟨segment, rest, hcons⟩ := List.exists_cons_of_ne_nil hitem.2
        rw [written_of_resolve hv (hitem.output_eq.trans hcons), hcons]
        exact ih (h.setPath (hcons ▸ hv)) hrest
      · rw [selectedPaths_cons_of_not_found hfound, written_of_not_found hfound]
        exact ih h hrest

theorem restriction_projected (d : Json) (hplain : ∀ item ∈ items, item.Plain) :
    Restriction (selectedPaths (SelectItem.identity :: items) d) d (.obj (projected items d)) := by
  have hall : ∀ item ∈ SelectItem.identity :: items, item.Plain := by
    intro item hitem
    rcases List.mem_cons.mp hitem with rfl | hitem
    · exact ⟨rfl, List.cons_ne_nil _ _⟩
    · exact hplain item hitem
  have h := restriction_foldl_written (Restriction.empty d) hall
  rwa [Set.empty_union] at h

/-- What is selected is as in the document, missing where it is missing
there. -/
theorem resolve_projected (d : Json) (hplain : ∀ item ∈ items, item.Plain)
    (hitem : item ∈ SelectItem.identity :: items) :
    (Json.obj (projected items d)).resolve item.segments = d.resolve item.segments := by
  have hrestriction := restriction_projected d hplain
  by_cases hfound : item.Found d
  · exact hrestriction.resolve_of_mem ⟨⟨item, hitem, rfl⟩, hfound⟩
  · rw [SelectItem.resolve_of_not_found hfound, Option.eq_none_iff_forall_ne_some]
    intro w hw
    exact hfound (hrestriction.defined_of_resolve hw)

/-- What is apart from all that is selected is missing. -/
theorem resolve_projected_of_apart (d : Json) (hplain : ∀ item ∈ items, item.Plain)
    {path : List String} (hapart : ∀ item ∈ SelectItem.identity :: items, Apart item.segments path) :
    (Json.obj (projected items d)).resolve path = none := by
  have hne : path ≠ [] := (hapart SelectItem.identity (List.mem_cons_self ..)).ne_nil
  rw [Option.eq_none_iff_forall_ne_some]
  intro w hw
  obtain ⟨_, ⟨⟨item, hitem, rfl⟩, -⟩, hnot⟩ :=
    (restriction_projected d hplain).not_apart_of_resolve hne hw
  exact hnot (hapart item hitem)

theorem head_keys_projected (items : List SelectItem) {v : Json} (hv : d.field? "id" = some v) :
    (projected items d).keys.head? = some "id" := by
  have hresolve : d.resolve SelectItem.identity.segments = some v := by
    rw [SelectItem.identity, resolve_cons, hv]
    rfl
  have hstart : written d [] SelectItem.identity = [("id", v)] := written_of_resolve hresolve rfl
  rw [projected, List.foldl_cons, hstart]
  obtain ⟨keys, hkeys⟩ := keys_prefix_foldl_written items d [("id", v)]
  rw [← hkeys]
  rfl

/-- **A projection without names is a restriction.** At the selected paths
and at the `id`, the result has what the document has; it has nothing apart
from them and nothing that the document lacks. The `id` comes in front, and
the order of the items decides on the order of keys alone. -/
theorem projectDocument_restricts (items : List SelectItem) (d : Json)
    (hitems : ∀ item ∈ items, item.alias? = none ∧ item.segments ≠ []) :
    ∃ fields, projectDocument items d = .ok (.obj fields) ∧
      (∀ path, (path = ["id"] ∨ ∃ item ∈ items, item.segments = path) →
        (Json.obj fields).resolve path = d.resolve path) ∧
      (∀ path, Apart ["id"] path → (∀ item ∈ items, Apart item.segments path) →
        (Json.obj fields).resolve path = none) ∧
      (∀ path w, (Json.obj fields).resolve path = some w → ∃ v, d.resolve path = some v) ∧
      ((∃ v, d.field? "id" = some v) → (Table.keys fields).head? = some "id") ∧
      ∀ items', items'.Perm items → ∃ fields', projectDocument items' d = .ok (.obj fields') ∧
        (Json.obj fields).Reordered (.obj fields') := by
  have hplain : ∀ item ∈ items, item.Plain := hitems
  have hproject : ∀ items' : List SelectItem, items'.Perm items →
      projectDocument items' d = .ok (.obj (projected items' d)) := by
    intro items' hperm
    refine projectDocument_eq fun item hitem => ?_
    have hitem := hplain item (hperm.mem_iff.mp hitem)
    rw [hitem.output_eq]
    exact hitem.2
  refine ⟨projected items d, hproject items (List.Perm.refl items), ?_, ?_, ?_, ?_, ?_⟩
  · intro path hpath
    rcases hpath with rfl | ⟨item, hitem, rfl⟩
    · exact resolve_projected d hplain (List.mem_cons_self ..)
    · exact resolve_projected d hplain (List.mem_cons_of_mem _ hitem)
  · intro path hid hapart
    exact resolve_projected_of_apart d hplain (List.forall_mem_cons.mpr ⟨hid, hapart⟩)
  · intro path w hw
    exact (restriction_projected d hplain).defined_of_resolve hw
  · rintro ⟨v, hv⟩
    exact head_keys_projected items hv
  · intro items' hperm
    have hplain' : ∀ item ∈ items', item.Plain := fun item h => hplain item (hperm.mem_iff.mp h)
    have hrestriction := restriction_projected d hplain'
    rw [selectedPaths_perm (hperm.cons SelectItem.identity)] at hrestriction
    exact ⟨projected items' d, hproject items' hperm,
      (restriction_projected d hplain).reordered hrestriction⟩

/-- An object, a field of it, and a field of the `id`. -/
theorem projectDocument_restricts_overlapping :
    let items : List SelectItem := [⟨"c.a.b", ["a", "b"], none⟩, ⟨"c.a", ["a"], none⟩,
      ⟨"c.id.x", ["id", "x"], none⟩]
    let d : Json := .obj [("a", .obj [("x", .int 1), ("b", .null)]), ("c", .int 2),
      ("id", .obj [("x", .int 3)])]
    ∃ fields, projectDocument items d = .ok (.obj fields) ∧
      (Json.obj fields).resolve ["a"] = some (.obj [("x", .int 1), ("b", .null)]) ∧
      (Json.obj fields).resolve ["c"] = none ∧ (Table.keys fields).head? = some "id" := by
  intro items d
  obtain ⟨fields, hfields, hselected, hapart, -, hid, -⟩ :=
    projectDocument_restricts items d (by decide)
  exact ⟨fields, hfields, hselected ["a"] (by decide), hapart ["c"] (by decide) (by decide),
    hid ⟨_, rfl⟩⟩

end DocStore
