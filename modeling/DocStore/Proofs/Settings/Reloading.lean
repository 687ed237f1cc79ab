import DocStore.Proofs.Run
import DocStore.Proofs.Text.FilePath
import DocStore.Settings.Loader

/-!
# Reloading settings

A loader is asked to load, to reload, or for the settings in force
(`LoaderCall`), each time with files and environment as they are by
then; a list of calls takes it through a run (`SettingsLoader.runCalls`).

What a load gives depends on nothing that was loaded before
(`Loading.settings`). What it leaves behind is remembered piece by piece,
as far as it came:

- The settings in force are replaced at the end only, so a failed load
  keeps them. But it remembers the file once it has read it, and the
  overrides once it has laid them over. A failed load is forgotten as a
  whole only if these were remembered already (`load_eq_self_iff`), which
  includes that it did not come as far; then all later answers are what
  they would have been without it (`answers_of_failed_load`).
- The overrides are replaced by those of every load, the file by that of
  a load that names one. So a reload uses the file that was named last
  (`file_runCalls`), with the overrides of the last load. That gives the
  settings of the last load if it named a file itself or no load before
  it did (`reload_replays`).
-/

namespace DocStore

/-! ## What a load gives -/

namespace Loading

/-- The file that is to be read; an empty path names none. -/
def named? (path : Option String) : Option String :=
  path.filter fun p => !p.isEmpty

/-- All layers, each laid over the one before. -/
def layers (s : Surroundings) (path : Option String) (overrides : Json) : Loading FileContent :=
  fileLayer s.files (named? path) >>= withEnvironment s.environment >>= withOverrides overrides

/-- What a load gives, whatever was loaded before. -/
def settings (s : Surroundings) (path : Option String) (overrides : Json) : Loading Settings :=
  layers s path overrides >>= checked >>= shown

/-! ### Errors of files -/

/-- The error is none of a file that cannot be read. -/
def NotOfFile (e : LoadError) : Prop :=
  ∀ cause, e ≠ .file cause

section NotOfFile

variable {content : FileContent}

theorem notOfFile_overlay (layer : Fields) :
    EndsIn (overlay content layer) (fun _ => True) NotOfFile := by
  unfold overlay
  split
  · trivial
  · split
    · trivial
    · exact fun _ h => by cases h
  · exact fun _ h => by cases h

theorem notOfFile_withEnvironment (environment : Table String) :
    EndsIn (withEnvironment environment content).outcome (fun _ => True) NotOfFile := by
  have henvironment : EndsIn ((environmentLayer environment).mapError LoadError.environment)
      (fun _ => True) NotOfFile :=
    (EndsIn.trivial _).mapError fun _ _ _ h => by cases h
  rw [withEnvironment, Run.outcome_bind, Run.outcome_ofExcept]
  refine henvironment.bind fun layer _ => ?_
  rw [Run.outcome_bind, Run.outcome_ofExcept]
  refine (notOfFile_overlay layer).bind fun content _ => ?_
  split <;> trivial

theorem notOfFile_withOverrides (overrides : Json) :
    EndsIn (withOverrides overrides content).outcome (fun _ => True) NotOfFile := by
  unfold withOverrides
  split
  · trivial
  · split
    · exact notOfFile_overlay _
    · exact fun _ h => by cases h

theorem notOfFile_checked : EndsIn (checked content).outcome (fun _ => True) NotOfFile := by
  unfold checked
  split
  · split
    · exact fun _ h => by cases h
    · split
      · trivial
      · exact fun _ h => by cases h
  · exact fun _ h => by cases h

theorem notOfFile_shown (σ : Settings) :
    EndsIn (shown σ).outcome (fun _ => True) NotOfFile := by
  unfold shown
  split
  · trivial
  · exact fun _ h => by cases h

/-- Once the file has been read, nothing fails for the file. -/
theorem notOfFile_settings {s : Surroundings} {path : Option String} {overrides : Json}
    (h : (fileLayer s.files (named? path)).outcome = .ok content) {e : LoadError}
    (he : (settings s path overrides).outcome = .error e) : NotOfFile e := by
  have hends : EndsIn (settings s path overrides).outcome (fun _ => True) NotOfFile := by
    simp only [settings, layers, Run.outcome_bind, h, ok_bind]
    exact (((notOfFile_withEnvironment _).bind fun _ _ => notOfFile_withOverrides _).bind
      fun _ _ => notOfFile_checked).bind fun σ _ => notOfFile_shown σ
  exact hends.of_error he

end NotOfFile

/-! ### Normal paths -/

/-- A normal path is not empty, so it names a file. -/
theorem named?_map_normalize (path : Option String) :
    named? (path.map FilePath.normalize) = path.map FilePath.normalize := by
  cases path with
  | none => rfl
  | some p => simp [named?, Option.filter, FilePath.isEmpty_normalize]

theorem map_normalize_map_normalize (path : Option String) :
    (path.map FilePath.normalize).map FilePath.normalize = path.map FilePath.normalize := by
  cases path with
  | none => rfl
  | some p => exact congrArg some (FilePath.normalize_normalize p)

/-- What is read from a path is read from the normal path too. -/
theorem ofFile_normalize {files : Table String} {path : String} {content : FileContent}
    (h : FileContent.ofFile files path = .ok content) :
    FileContent.ofFile files (FilePath.normalize path) = .ok content := by
  unfold FileContent.ofFile at h ⊢
  simp only [FilePath.normalize_normalize, FilePath.ending_normalize] at h ⊢
  split at h
  · exact h
  · cases h

theorem outcome_fileLayer_some (files : Table String) (path : String) :
    (fileLayer files (some path)).outcome =
      (FileContent.ofFile files path).mapError LoadError.file := by
  cases h : FileContent.ofFile files path <;> simp only [fileLayer, h] <;> rfl

theorem fileLayer_normalize {files : Table String} {path : Option String}
    {content : FileContent} (h : (fileLayer files path).outcome = .ok content) :
    (fileLayer files (path.map FilePath.normalize)).outcome = .ok content := by
  cases path with
  | none => exact h
  | some p =>
      rw [outcome_fileLayer_some, mapError_eq_ok_iff] at h
      rw [Option.map_some, outcome_fileLayer_some, ofFile_normalize h, mapError_ok]

/-- A load from a normal path gives what the path gave. -/
theorem settings_normalize {s : Surroundings} {path : Option String} {overrides : Json}
    {σ : Settings} (h : (settings s path overrides).outcome = .ok σ) :
    (settings s ((named? path).map FilePath.normalize) overrides).outcome = .ok σ := by
  simp only [settings, layers, Run.outcome_bind] at h ⊢
  rw [named?_map_normalize]
  cases hread : (fileLayer s.files (named? path)).outcome with
  | error e =>
      rw [hread] at h
      cases h
  | ok content =>
      rw [fileLayer_normalize hread]
      rwa [hread] at h

end Loading

/-! ## Calls -/

/-- What a loader can be asked. -/
inductive LoaderCall where
  | load (path : Option String) (overrides : Json)
  | reload
  | current

/-- What it answers: the run of a load, or the settings in force if
there are any. -/
inductive LoaderAnswer where
  | loaded (run : Loading Settings)
  | inForce (settings : Option Settings)

/-- The answer holds settings. -/
def LoaderAnswer.settings? : LoaderAnswer → Option Settings
  | loaded run => run.outcome.toOption
  | inForce settings => settings

/-- The file that a call names. -/
def LoaderCall.file? : LoaderCall → Option String
  | load path _ => Loading.named? path
  | reload | current => none

/-- The file that was named last. -/
def lastFile? : List (Surroundings × LoaderCall) → Option String
  | [] => none
  | (_, c) :: rest => lastFile? rest <|> c.file?

namespace SettingsLoader

variable {l : SettingsLoader} {s : Surroundings} {path : Option String} {overrides : Json}

/-- Answers a call. -/
def call (l : SettingsLoader) (s : Surroundings) : LoaderCall → LoaderAnswer × SettingsLoader
  | .load path overrides =>
    let (l, run) := l.load s path overrides
    (.loaded run, l)
  | .reload =>
    let (l, run) := l.reload s
    (.loaded run, l)
  | .current => (.inForce l.current, l)

/-- Answers calls one after the other. -/
def runCalls (l : SettingsLoader) :
    List (Surroundings × LoaderCall) → List LoaderAnswer × SettingsLoader
  | [] => ([], l)
  | (s, c) :: rest =>
    let (answer, l) := l.call s c
    let (answers, l) := runCalls l rest
    (answer :: answers, l)

/-- All calls are answered with settings. -/
def Succeeds (l : SettingsLoader) (calls : List (Surroundings × LoaderCall)) : Prop :=
  ∀ a ∈ (l.runCalls calls).1, a.settings?.isSome = true

/-! ## What a load remembers -/

theorem eq_of_parts {l l' : SettingsLoader} (hcurrent : l.current = l'.current)
    (hfile : l.file = l'.file) (hoverrides : l.overrides = l'.overrides) : l = l' := by
  cases l
  cases l'
  simp_all

theorem file_load_of_ok {content : FileContent}
    (h : (Loading.fileLayer s.files (Loading.named? path)).outcome = .ok content) :
    (l.load s path overrides).1.file =
      ((Loading.named? path).map FilePath.normalize <|> l.file) :=
  if_pos (congrArg Except.isOk h)

theorem file_load_of_error {e : LoadError}
    (h : (Loading.fileLayer s.files (Loading.named? path)).outcome = .error e) :
    (l.load s path overrides).1.file = l.file :=
  if_neg (Bool.eq_false_iff.mp (congrArg Except.isOk h))

theorem overrides_load_of_ok {content : FileContent}
    (h : (Loading.layers s path overrides).outcome = .ok content) :
    (l.load s path overrides).1.overrides = overrides :=
  if_pos (congrArg Except.isOk h)

theorem overrides_load_of_error {e : LoadError}
    (h : (Loading.layers s path overrides).outcome = .error e) :
    (l.load s path overrides).1.overrides = l.overrides :=
  if_neg (Bool.eq_false_iff.mp (congrArg Except.isOk h))

/-- A load that succeeds has read its file and laid its layers over one
another. -/
theorem outcomes_of_ok {σ : Settings}
    (h : (Loading.settings s path overrides).outcome = .ok σ) :
    (∃ content, (Loading.fileLayer s.files (Loading.named? path)).outcome = .ok content) ∧
      ∃ content, (Loading.layers s path overrides).outcome = .ok content := by
  simp only [Loading.settings, Run.outcome_bind] at h
  obtain ⟨_, hchecked, -⟩ := bind_eq_ok_iff.mp h
  obtain ⟨content, hlayers, -⟩ := bind_eq_ok_iff.mp hchecked
  refine ⟨?_, content, hlayers⟩
  simp only [Loading.layers, Run.outcome_bind] at hlayers
  obtain ⟨_, henvironment, -⟩ := bind_eq_ok_iff.mp hlayers
  obtain ⟨file, hfile, -⟩ := bind_eq_ok_iff.mp henvironment
  exact ⟨file, hfile⟩

/-! ## Failed loads -/

/-- What a load leaves behind is remembered already: the file, if it
comes as far as reading it, and the overrides, if it comes as far as
laying them over. -/
structure Remembers (l : SettingsLoader) (s : Surroundings) (path : Option String)
    (overrides : Json) : Prop where
  file : ∀ content, (Loading.fileLayer s.files (Loading.named? path)).outcome = .ok content →
    ∀ p ∈ Loading.named? path, l.file = some (FilePath.normalize p)
  overrides : ∀ content, (Loading.layers s path overrides).outcome = .ok content →
    l.overrides = overrides

theorem file_load_eq_iff :
    (l.load s path overrides).1.file = l.file ↔
      ∀ content, (Loading.fileLayer s.files (Loading.named? path)).outcome = .ok content →
        ∀ p ∈ Loading.named? path, l.file = some (FilePath.normalize p) := by
  cases hread : (Loading.fileLayer s.files (Loading.named? path)).outcome with
  | error e => simp [file_load_of_error hread]
  | ok content =>
      rw [file_load_of_ok hread]
      cases Loading.named? path with
      | none => simp
      | some p => simp [eq_comm]

theorem overrides_load_eq_iff :
    (l.load s path overrides).1.overrides = l.overrides ↔
      ∀ content, (Loading.layers s path overrides).outcome = .ok content →
        l.overrides = overrides := by
  cases hlayers : (Loading.layers s path overrides).outcome with
  | error e => simp [overrides_load_of_error hlayers]
  | ok content => simp [overrides_load_of_ok hlayers, eq_comm]

section Failed

variable {e : LoadError} (hfail : (l.load s path overrides).2.outcome = .error e)
  (he : e ≠ .unshowable)

include hfail he

/-- A failed load is forgotten if and only if it has nothing new to be
remembered. -/
theorem load_eq_self_iff :
    (l.load s path overrides).1 = l ↔ l.Remembers s path overrides := by
  constructor
  · intro h
    exact ⟨file_load_eq_iff.mp (congrArg SettingsLoader.file h),
      overrides_load_eq_iff.mp (congrArg SettingsLoader.overrides h)⟩
  · rintro ⟨hfile, hoverrides⟩
    exact eq_of_parts (current_load_of_error he hfail) (file_load_eq_iff.mpr hfile)
      (overrides_load_eq_iff.mpr hoverrides)

omit he in
/-- A load whose file cannot be read does not come far enough to be
remembered. -/
theorem remembers_of_file_error {cause : FileError} (hcause : e = .file cause) :
    l.Remembers s path overrides := by
  have hread : ∀ content,
      (Loading.fileLayer s.files (Loading.named? path)).outcome ≠ .ok content := by
    intro content hread
    exact Loading.notOfFile_settings hread hfail cause hcause
  refine ⟨fun content h => absurd h (hread content), fun content h => ?_⟩
  simp only [Loading.layers, Run.outcome_bind] at h
  obtain ⟨_, henvironment, -⟩ := bind_eq_ok_iff.mp h
  obtain ⟨file, hfile, -⟩ := bind_eq_ok_iff.mp henvironment
  exact absurd hfile (hread file)

/-- **What a failed load leaves behind**: the settings in force stay. If
the file could not be read, or nothing new was there to be remembered,
all later calls are answered as if the failed load had not been. -/
theorem answers_of_failed_load :
    (∀ s', ((l.load s path overrides).1.call s' .current).1 = (l.call s' .current).1) ∧
      ((∃ cause, e = .file cause) ∨ l.Remembers s path overrides → ∀ later,
        ((l.load s path overrides).1.runCalls later).1 = (l.runCalls later).1) := by
  refine ⟨fun s' => congrArg LoaderAnswer.inForce (current_load_of_error he hfail), ?_⟩
  rintro h later
  have hremembers : l.Remembers s path overrides := by
    rcases h with ⟨cause, hcause⟩ | h
    · exact remembers_of_file_error hfail hcause
    · exact h
  rw [(load_eq_self_iff hfail he).mpr hremembers]

end Failed

/-- A file that is missing leaves no trace: a reload gives the settings
that were loaded before. -/
theorem answers_of_failed_load_missing :
    let l := (new.load ⟨[], []⟩ none .null).1
    ∃ e, (l.load ⟨[], []⟩ (some "a.json") (.obj [("version", .str "2.0.0")])).2.outcome = .error e ∧
      (∃ cause, e = .file cause) ∧
      ((l.load ⟨[], []⟩ (some "a.json") (.obj [("version", .str "2.0.0")])).1.runCalls
        [(⟨[], []⟩, .reload)]).1 = (l.runCalls [(⟨[], []⟩, .reload)]).1 := by
  refine ⟨.file (.missing "a.json"), rfl, ⟨_, rfl⟩, ?_⟩
  exact (answers_of_failed_load rfl (by simp)).2 (.inl ⟨_, rfl⟩) _

/-- Overrides that were refused are remembered: a reload is refused for
them, where the settings in force would have been loaded again. -/
theorem reload_refused_after_failed_load :
    let l := (new.load ⟨[], []⟩ none .null).1
    let failed := l.load ⟨[], []⟩ none (.obj [("version", .str "x")])
    failed.2.outcome.isOk = false ∧ (l.reload ⟨[], []⟩).2.outcome.isOk = true ∧
      (failed.1.reload ⟨[], []⟩).2.outcome.isOk = false := by
  decide +kernel

/-! ## Reloads -/

/-- A successful call leaves the file that it names, else the one
remembered so far. -/
theorem file_call {c : LoaderCall} {f : Option String} (hf : l.file = f.map FilePath.normalize)
    (h : (l.call s c).1.settings?.isSome = true) :
    (l.call s c).2.file = (c.file? <|> f).map FilePath.normalize := by
  have hload : ∀ {path overrides}, (l.load s path overrides).2.outcome.toOption.isSome = true →
      (l.load s path overrides).1.file =
        ((Loading.named? path).map FilePath.normalize <|> f.map FilePath.normalize) := by
    intro path overrides h
    obtain ⟨σ, hσ, -⟩ := exists_ok_of_any (p := fun _ => true) (by rwa [Option.any_true])
    obtain ⟨⟨content, hread⟩, -⟩ := outcomes_of_ok hσ
    rw [file_load_of_ok hread, hf]
  cases c with
  | load path overrides =>
      refine (hload h).trans ?_
      simp only [LoaderCall.file?]
      cases Loading.named? path <;> rfl
  | reload =>
      refine (hload h).trans ?_
      rw [hf, Loading.named?_map_normalize, Loading.map_normalize_map_normalize]
      cases f <;> rfl
  | current => exact hf

theorem succeeds_cons_iff {c : LoaderCall} {rest : List (Surroundings × LoaderCall)} :
    l.Succeeds ((s, c) :: rest) ↔
      (l.call s c).1.settings?.isSome = true ∧ (l.call s c).2.Succeeds rest := by
  simp only [Succeeds, runCalls, List.forall_mem_cons]

theorem file_runCalls_of {calls : List (Surroundings × LoaderCall)} {f : Option String}
    (hf : l.file = f.map FilePath.normalize) (h : l.Succeeds calls) :
    (l.runCalls calls).2.file = (lastFile? calls <|> f).map FilePath.normalize := by
  induction calls generalizing l f with
  | nil => exact hf
  | cons head rest ih =>
      obtain ⟨s, c⟩ := head
      obtain ⟨hhead, hrest⟩ := succeeds_cons_iff.mp h
      refine (ih (file_call hf hhead) hrest).trans ?_
      simp only [lastFile?]
      cases lastFile? rest <;> rfl

/-- After calls that all succeeded, the file is the one that was named
last. -/
theorem file_runCalls {calls : List (Surroundings × LoaderCall)} (h : new.Succeeds calls) :
    (new.runCalls calls).2.file = (lastFile? calls).map FilePath.normalize := by
  have hfile := file_runCalls_of (f := none) rfl h
  rw [hfile]
  cases lastFile? calls <;> rfl

/-- The settings are in force, and loading again what is remembered
gives them. -/
structure Replays (l : SettingsLoader) (s : Surroundings) (σ : Settings) : Prop where
  current : l.current = some σ
  again : (Loading.settings s l.file l.overrides).outcome = .ok σ

/-- A load is replayed if it names a file, or none is remembered. -/
theorem replays_load {σ : Settings} (h : (Loading.settings s path overrides).outcome = .ok σ)
    (hfile : (Loading.named? path).isSome = true ∨ Loading.named? l.file = none) :
    (l.load s path overrides).1.Replays s σ := by
  obtain ⟨⟨_, hread⟩, _, hlayers⟩ := outcomes_of_ok h
  refine ⟨current_load_of_ok h, ?_⟩
  rw [file_load_of_ok hread, overrides_load_of_ok hlayers]
  cases hnamed : Loading.named? path with
  | some p =>
      have hagain := Loading.settings_normalize h
      rwa [hnamed] at hagain
  | none =>
      have hnone : Loading.named? l.file = none := by simpa [hnamed] using hfile
      change (Loading.settings s l.file overrides).outcome = .ok σ
      simpa only [Loading.settings, Loading.layers, hnamed, hnone] using h

theorem replays_reload {σ : Settings} (h : l.Replays s σ) : (l.reload s).1.Replays s σ := by
  refine replays_load h.again ?_
  cases Loading.named? l.file <;> simp

/-- Reloads give the settings that are replayed, and go on doing so. -/
theorem settings?_runCalls {σ : Settings} (h : l.Replays s σ)
    {later : List (Surroundings × LoaderCall)}
    (hlater : ∀ call ∈ later, call = (s, .reload) ∨ call.2 = .current) :
    ∀ a ∈ (l.runCalls later).1, a.settings? = some σ := by
  induction later generalizing l with
  | nil => simp [runCalls]
  | cons head rest ih =>
      obtain ⟨hhead, hrest⟩ := List.forall_mem_cons.mp hlater
      obtain ⟨s', c⟩ := head
      have hcall : (l.call s' c).1.settings? = some σ ∧ (l.call s' c).2.Replays s σ := by
        rcases hhead with hreload | hcurrent
        · cases hreload
          exact ⟨congrArg Except.toOption h.again, replays_reload h⟩
        · cases hcurrent
          exact ⟨h.current, h⟩
      exact List.forall_mem_cons.mpr ⟨hcall.1, ih hcall.2 hrest⟩

/-- **What a reload replays**: the last load, if it named a file itself
or no load before it did. From then on every reload, and the settings in
force, are what it gave. -/
theorem reload_replays {before later : List (Surroundings × LoaderCall)} {σ : Settings}
    (hbefore : new.Succeeds before)
    (hload : ((new.runCalls before).2.load s path overrides).2.outcome = .ok σ)
    (hfile : (Loading.named? path).isSome = true ∨ lastFile? before = none)
    (hlater : ∀ call ∈ later, call = (s, .reload) ∨ call.2 = .current) :
    ∀ a ∈ (((new.runCalls before).2.load s path overrides).1.runCalls later).1,
      a.settings? = some σ := by
  refine settings?_runCalls (replays_load hload (hfile.imp_right fun h => ?_)) hlater
  rw [file_runCalls hbefore, h]
  rfl

/-- A file is replayed, though another was loaded before. -/
theorem reload_replays_named :
    let s : Surroundings := ⟨[("a.json", "\x7b\"version\": \"1.0.1\"\x7d"),
      ("b.json", "\x7b\"version\": \"1.0.2\"\x7d")], []⟩
    let l := (new.runCalls [(s, .load (some "a.json") .null)]).2
    ∃ σ, (l.load s (some "b.json") .null).2.outcome = .ok σ ∧ σ.version = "1.0.2" ∧
      ∀ a ∈ ((l.load s (some "b.json") .null).1.runCalls
        [(s, .reload), (s, .current), (s, .reload)]).1, a.settings? = some σ := by
  intro s l
  have hbefore : new.Succeeds [(s, .load (some "a.json") .null)] := by
    unfold Succeeds
    decide +kernel
  obtain ⟨σ, hload, hσ⟩ : ∃ σ, (l.load s (some "b.json") .null).2.outcome = .ok σ ∧
      (σ.version == "1.0.2") = true :=
    exists_ok_of_any (by decide +kernel)
  exact ⟨σ, hload, beq_iff_eq.mp hσ, reload_replays hbefore hload (.inl rfl) (by simp)⟩

/-- The file of an earlier load is read by a reload, where the last load
read none. -/
theorem reload_reads_earlier_file :
    let s : Surroundings := ⟨[("a.json", "\x7b\"version\": \"1.0.1\"\x7d")], []⟩
    let first := (new.load s (some "a.json") .null).1
    let last := first.load s none .null
    new.Succeeds [(s, .load (some "a.json") .null), (s, .load none .null), (s, .reload)] ∧
      last.2.outcome.toOption.map (·.version) = some "1.0.0" ∧
      (last.1.reload s).2.outcome.toOption.map (·.version) = some "1.0.1" := by
  unfold Succeeds
  decide +kernel

end SettingsLoader

end DocStore
