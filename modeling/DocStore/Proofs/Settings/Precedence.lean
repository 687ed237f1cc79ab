import DocStore.Proofs.Json.Equality
import DocStore.Proofs.Settings.Overlay
import DocStore.Proofs.Settings.Reloading
import Mathlib.Data.List.Nodup

/-!
# Which layer of the settings counts

Of a file, the environment and overrides, the last one that sets a value
counts, path by path (`settings_precedence`). That is so for every path
at which environment and overrides are settled: they set a value that is
no map, or pass the path by. What is laid over what along the way is told
by `Entries.Overlays`, once for each of the two.
-/

namespace DocStore

open Validation

/-! ## Layers made of JSON -/

namespace Validation.Given

theorem ofFields_eq_map (fields : Fields) :
    ofFields fields = fields.map fun f => (.text f.1, ofJson f.2) := by
  induction fields with
  | nil => rw [ofFields, List.map_nil]
  | cons f rest ih => rw [ofFields, ih, List.map_cons]

theorem keyed_ofFields {fields : Fields} (hnodup : fields.keys.Nodup)
    (h : ∀ f ∈ fields, (ofJson f.2).Keyed) : (map (ofFields fields)).Keyed := by
  rw [ofFields_eq_map]
  refine .map ?_ (List.forall_mem_map.mpr h)
  have hkeys : Table.keys (fields.map fun f => (Key.text f.1, ofJson f.2)) =
      fields.keys.map Key.text := by
    simp [Table.keys]
  rw [hkeys]
  exact hnodup.map fun _ _ => Key.text.inj

theorem keyed_ofJson {v : Json} (h : v.Keyed) : (ofJson v).Keyed := by
  induction v using Json.induct with
  | obj fields ih =>
      rw [ofJson]
      exact keyed_ofFields h.nodup fun f hf => ih f hf (h.field hf)
  | _ => exact .leaf (by rw [ofJson]; rfl)

end Validation.Given

/-! ## The environment -/

/-- The fields that are given, in the order of their names. -/
theorem sublist_given (fields : List (String × Option Json)) :
    ((fields.filterMap fun (key, v?) => v?.map (key, ·)).map (·.1)).Sublist
      (fields.map (·.1)) := by
  induction fields with
  | nil => exact .slnil
  | cons f rest ih =>
      obtain ⟨key, v?⟩ := f
      cases v? with
      | none => exact ih.cons key
      | some v => exact ih.cons_cons key

theorem keyed_of_group? {name : String} {fields : List (String × Option Json)}
    (hnodup : (fields.map (·.1)).Nodup)
    (hleaf : ∀ f ∈ fields, ∀ v ∈ f.2, (Given.ofJson v).isMap = false) :
    ∀ e ∈ group? name fields, e.1 = name ∧ (Given.ofJson e.2).Keyed := by
  intro e he
  have hgiven : ∀ f ∈ fields.filterMap fun (key, v?) => v?.map (key, ·),
      (Given.ofJson f.2).Keyed := by
    intro f hf
    obtain ⟨⟨key, v?⟩, hmem, hmap⟩ := List.mem_filterMap.mp hf
    obtain ⟨v, hv, rfl⟩ := Option.map_eq_some_iff.mp hmap
    exact .leaf (hleaf _ hmem v hv)
  have hkeys := hnodup.sublist (sublist_given fields)
  unfold group? at he
  split at he
  · cases he
  · obtain rfl := Option.some.inj he
    refine ⟨rfl, ?_⟩
    rw [Given.ofJson]
    exact Given.keyed_ofFields hkeys hgiven

theorem isMap_of_integerSet? {environment : Table String} {name : String} {v? : Option Json}
    (h : integerSet? environment name = .ok v?) : ∀ v ∈ v?, (Given.ofJson v).isMap = false := by
  unfold integerSet? at h
  split at h
  · obtain rfl := Except.ok.inj h
    intro v hv
    cases hv
  · obtain ⟨n, -, rfl⟩ := map_eq_ok_iff.mp h
    intro v hv
    obtain rfl := Option.some.inj hv
    rfl

theorem isMap_of_map {s? : Option String} {f : String → Json}
    (hf : ∀ s, (Given.ofJson (f s)).isMap = false) :
    ∀ v ∈ s?.map f, (Given.ofJson v).isMap = false := by
  intro v hv
  obtain ⟨s, -, rfl⟩ := Option.map_eq_some_iff.mp hv
  exact hf s

/-- Of the groups each has a name of its own, so those that are there
have. -/
theorem keyed_of_groups {names : List String} {groups : List (Option (String × Json))}
    (hnodup : names.Nodup)
    (h : List.Forall₂ (fun name group? => ∀ e ∈ group?, e.1 = name ∧ (Given.ofJson e.2).Keyed)
      names groups) :
    (Given.map (Given.ofFields (groups.filterMap id))).Keyed := by
  have hparts : (Table.keys (groups.filterMap id)).Sublist names ∧
      ∀ e ∈ groups.filterMap id, (Given.ofJson e.2).Keyed := by
    clear hnodup
    induction h with
    | nil => exact ⟨.slnil, List.forall_mem_nil _⟩
    | @cons name group? names groups hgroup hrest ih =>
        cases group? with
        | none => exact ⟨ih.1.cons name, ih.2⟩
        | some e =>
            obtain ⟨rfl, hkeyed⟩ := hgroup e rfl
            exact ⟨ih.1.cons_cons e.1, List.forall_mem_cons.mpr ⟨hkeyed, ih.2⟩⟩
  exact Given.keyed_ofFields (hnodup.sublist hparts.1) hparts.2

theorem keyed_environmentLayer {environment : Table String} {layer : Fields}
    (h : environmentLayer environment = .ok layer) :
    (Given.map (Given.ofFields layer)).Keyed := by
  unfold environmentLayer at h
  obtain ⟨defaultSize, hdefault, h⟩ := bind_eq_ok_iff.mp h
  obtain ⟨maxSize, hmax, h⟩ := bind_eq_ok_iff.mp h
  obtain rfl := Except.ok.inj h
  refine keyed_of_groups ?_ (.cons (keyed_of_group? ?_ ?_) (.cons (keyed_of_group? ?_ ?_)
    (.cons (keyed_of_group? ?_ ?_) .nil)))
  · decide
  · simp
  · simp only [List.forall_mem_cons]
    exact ⟨isMap_of_map fun _ => rfl, isMap_of_map fun _ => rfl, isMap_of_map fun _ => rfl,
      List.forall_mem_nil _⟩
  · simp
  · simp only [List.forall_mem_cons]
    exact ⟨isMap_of_map fun _ => rfl, isMap_of_integerSet? hdefault, isMap_of_integerSet? hmax,
      List.forall_mem_nil _⟩
  · simp
  · simp only [List.forall_mem_cons]
    exact ⟨isMap_of_map fun _ => rfl, List.forall_mem_nil _⟩

/-! ## Three layers -/

/-- The layer of the overrides, if they make one; blank overrides make an
empty one. -/
def overridesLayer? (overrides : Json) : Option Fields :=
  if overrides.isBlank then some []
  else
    match overrides with
    | .obj fields => some fields
    | _ => none

/-- The layer sets a value that is no map, or passes the path by: it has
nothing there, and nothing but maps on the way. -/
def Validation.Entries.Settles (layer : Entries) (path : List Key) : Prop :=
  (∃ v, (Given.map layer).resolve path = some v ∧ v.isMap = false) ∨
    (Given.map layer).resolve path = none ∧ ∀ front v, front <+: path → front ≠ path →
      (Given.map layer).resolve front = some v → v.isMap = true

theorem Validation.Entries.Overlays.resolve_of_settles {base layer entries : Entries}
    {path : List Key} (h : Entries.Overlays base layer entries) (hsettles : layer.Settles path) :
    (Given.map entries).resolve path =
      ((Given.map layer).resolve path <|> (Given.map base).resolve path) := by
  rcases hsettles with ⟨v, hv, hmap⟩ | ⟨hnone, hfronts⟩
  · rw [h.sets path v hv hmap, hv]
    rfl
  · rw [h.passes path hnone hfronts, hnone]
    rfl

/-- The file holds a map, as it should. -/
def FileContent.isMap : FileContent → Bool
  | map _ => true
  | _ => false

theorem FileContent.exists_map_of_isMap {content : FileContent} (h : content.isMap = true) :
    ∃ entries, content = .map entries := by
  cases content with
  | map entries => exact ⟨entries, rfl⟩
  | _ => cases h

section Loading

variable {entries file : Entries} {environment : Table String} {overrides : Json} {layer : Fields}

theorem outcome_withEnvironment (h : environmentLayer environment = .ok layer) :
    (Loading.withEnvironment environment (.map entries)).outcome =
      .ok (.map (entries.overlay (Given.ofFields layer))) := by
  rw [Loading.withEnvironment, h, mapError_ok, Run.ofExcept_ok_bind, Loading.overlay,
    Run.ofExcept_ok_bind]
  split <;> rfl

theorem outcome_withOverrides (h : overridesLayer? overrides = some layer) :
    (Loading.withOverrides overrides (.map entries)).outcome =
      .ok (.map (entries.overlay (Given.ofFields layer))) := by
  unfold overridesLayer? at h
  unfold Loading.withOverrides
  split at h
  · rename_i hblank
    obtain rfl := Option.some.inj h
    rw [if_pos hblank, Given.ofFields, Entries.overlay]
    rfl
  · rename_i hblank
    rw [if_neg hblank]
    split at h
    · obtain rfl := Option.some.inj h
      rfl
    · cases h

end Loading

/-- **The last layer that sets a value counts.** A layer over another has
at every path what it says itself, and leaves the other what it passes by
(`Entries.Overlays`). So what a load checks has, at every path at which
environment and overrides are settled, the value of the overrides, else
that of the environment, else that of the file. -/
theorem settings_precedence :
    (∀ base layer : Entries, (Given.map layer).Keyed →
      Entries.Overlays base layer (base.overlay layer)) ∧
    ∀ (l : SettingsLoader) (s : Surroundings) (path : Option String) (overrides : Json)
      (file : Entries) (environment fields : Fields),
      (Loading.fileLayer s.files (Loading.named? path)).outcome = .ok (.map file) →
      environmentLayer s.environment = .ok environment →
      overridesLayer? overrides = some fields → (Json.obj fields).Keyed →
      ∃ entries, (Loading.layers s path overrides).outcome = .ok (.map entries) ∧
        (l.load s path overrides).2.outcome =
          (Loading.checked (.map entries) >>= Loading.shown).outcome ∧
        ∀ p, Entries.Settles (Given.ofFields environment) p →
          Entries.Settles (Given.ofFields fields) p →
          (Given.map entries).resolve p =
            ((Given.ofJson (.obj fields)).resolve p <|>
              (Given.ofJson (.obj environment)).resolve p <|> (Given.map file).resolve p) := by
  refine ⟨fun base layer => Entries.overlays_overlay base, ?_⟩
  intro l s path overrides file environment fields hfile henvironment hoverrides hkeyed
  have hlayers : (Loading.layers s path overrides).outcome =
      .ok (.map ((file.overlay (Given.ofFields environment)).overlay (Given.ofFields fields))) := by
    rw [Loading.layers, Run.outcome_bind, Run.outcome_bind, hfile, ok_bind,
      outcome_withEnvironment henvironment, ok_bind, outcome_withOverrides hoverrides]
  refine ⟨_, hlayers, ?_, fun p henv hover => ?_⟩
  · have hload : (l.load s path overrides).2 = Loading.settings s path overrides := rfl
    rw [hload, Loading.settings, bind_assoc, Run.outcome_bind, hlayers, ok_bind]
  · have hfields : (Given.map (Given.ofFields fields)).Keyed := by
      have h := Given.keyed_ofJson hkeyed
      rwa [Given.ofJson] at h
    have hoverlays := Entries.overlays_overlay file (keyed_environmentLayer henvironment)
    rw [(Entries.overlays_overlay _ hfields).resolve_of_settles hover,
      hoverlays.resolve_of_settles henv, Given.ofJson, Given.ofJson]

/-- The environment sets a level that the file sets too, and that the
overrides pass by. -/
theorem settings_precedence_level :
    let s : Surroundings := ⟨[("a.json", "\x7b\"logging\": \x7b\"level\": \"INFO\"\x7d\x7d")],
      [("MOCKCOSMOS_LOG_LEVEL", "debug")]⟩
    let overrides : Fields := [("logging", .obj [("format", .str "text")])]
    let off : Entries := [(.text "logging", .text "off")]
    Entries.Overlays off (Given.ofFields overrides) (off.overlay (Given.ofFields overrides)) ∧
    ∃ entries, (Loading.layers s (some "a.json") (.obj overrides)).outcome = .ok (.map entries) ∧
      (Given.map entries).resolve [.text "logging", .text "level"] = some (.text "DEBUG") := by
  intro s overrides off
  obtain ⟨content, hfile, hmap⟩ : ∃ content,
      (Loading.fileLayer s.files (Loading.named? (some "a.json"))).outcome = .ok content ∧
        content.isMap = true := exists_ok_of_any (by decide +kernel)
  obtain ⟨file, rfl⟩ := FileContent.exists_map_of_isMap hmap
  have hkeyed : (Json.obj overrides).Keyed := by
    intro fields hinside
    cases hinside with
    | self => decide
    | field hinside hmem =>
        obtain rfl := (Prod.mk.inj (List.mem_singleton.mp hmem)).2
        cases hinside with
        | self => decide
        | field hinside hmem =>
            obtain rfl := (Prod.mk.inj (List.mem_singleton.mp hmem)).2
            cases hinside
  have hover : Entries.Settles (Given.ofFields overrides) [.text "logging", .text "level"] := by
    refine .inr ⟨rfl, fun front v hfront hne hv => ?_⟩
    rcases List.prefix_cons_iff.mp hfront with rfl | ⟨rest, rfl, hrest⟩
    · obtain rfl := Option.some.inj hv
      rfl
    · rcases List.prefix_cons_iff.mp hrest with rfl | ⟨tail, rfl, htail⟩
      · obtain rfl := Option.some.inj hv
        rfl
      · obtain rfl := List.prefix_nil.mp htail
        exact absurd rfl hne
  have henvironment : environmentLayer s.environment =
      .ok [("logging", .obj [("level", .str "DEBUG")])] := by
    have hupper : "debug".upperCase = "DEBUG" := by decide +kernel
    rw [← hupper]
    rfl
  obtain ⟨entries, hentries, -, hresolve⟩ := settings_precedence.2 .new s (some "a.json")
    (.obj overrides) file _ overrides hfile henvironment rfl hkeyed
  have hlayer := Given.keyed_ofJson hkeyed
  rw [Given.ofJson] at hlayer
  exact ⟨settings_precedence.1 off _ hlayer, entries, hentries,
    hresolve _ (.inl ⟨.text "DEBUG", rfl, rfl⟩) hover⟩

end DocStore
