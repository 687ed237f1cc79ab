import DocStore.Proofs.Database.Dictionaries
import DocStore.Proofs.Store.Outcome

/-!
# The dictionaries represent the store

Two dictionaries represent a store if both have the names of its
containers as keys, in order, each name describes itself, and the
documents under a name are the documents of its collection by their ids
(`Represents`). Every call gives the same answer on both sides and keeps
them together (`call_represents`), so every run does
(`run_represents`). In particular no key is ever missing.
-/

namespace DocStore

/-- The documents of a collection, by their ids. -/
def Collection.table (c : Collection) : Table Json :=
  c.documents.map fun d => (d.id.text, d.toJson)

/-- The dictionaries hold what the store holds. -/
structure Represents (d : Dictionaries) (s : Store) : Prop where
  /-- The containers stand under the names of the store. -/
  names : d.containers.keys = s.names
  /-- Each container stands under its own name. -/
  described : ∀ e ∈ d.containers, e.2.name = e.1
  /-- The documents stand under the same names, by their ids. -/
  documents : d.documents = s.collections.map fun e => (e.1, e.2.table)

namespace Collection

theorem values_table (c : Collection) : c.table.values = c.contents := by
  simp only [table, Table.values, contents, List.map_map]
  rfl

theorem keys_table (c : Collection) : c.table.keys = c.ids.map (·.text) := by
  simp only [table, Table.keys, ids, List.map_map]
  rfl

theorem has_table_iff (c : Collection) (id : DocumentId) :
    c.table.has id.text = true ↔ id ∈ c.ids := by
  rw [Table.has_iff_mem_keys, keys_table]
  constructor
  · intro h
    obtain ⟨other, hmem, htext⟩ := List.mem_map.1 h
    rwa [← DocumentId.text_injective htext]
  · exact List.mem_map_of_mem

theorem put_table (c : Collection) (d : Document) (h : d.id ∉ c.ids) :
    c.table.put d.id.text d.toJson = (c.add d h).table := by
  have hkey : d.id.text ∉ c.table.keys := by
    rwa [← Table.has_iff_mem_keys, has_table_iff]
  rw [Table.put_of_not_mem _ hkey]
  simp only [table, add, List.map_append, List.map_cons, List.map_nil]

end Collection

namespace Represents

open Stateful Dictionaries

variable {d : Dictionaries} {s : Store}

theorem empty : Represents ⟨[], []⟩ .empty where
  names := rfl
  described := by
    intro e h
    cases h
  documents := rfl

/-! ## Looking up -/

theorem has_containers (h : Represents d s) (name : String) :
    (d.containers.get? name).isSome = (s.find? name).isSome :=
  Table.has_eq_of_keys_eq h.names name

theorem get_documents (h : Represents d s) (name : String) :
    d.documents.get? name = (s.find? name).map Collection.table := by
  rw [h.documents, Table.get?_map]
  rfl

theorem name_of_get {name : String} {c : ContainerDescription} (h : Represents d s)
    (hget : d.containers.get? name = some c) : c.name = name :=
  h.described _ (Table.mem_of_get? hget)

theorem exec_findContainer_str (name : String) (d : Dictionaries) :
    (findContainer (.str name)).exec d = (.ok (d.containers.get? name), d) := rfl

/-- A container that the store has is found, under its name. -/
theorem exec_findContainer_of_some {name : String} {c : Collection} (h : Represents d s)
    (hc : s.find? name = some c) :
    ∃ description, (findContainer (.str name)).exec d = (.ok (some description), d) ∧
      description.name = name := by
  have hsome := h.has_containers name
  rw [hc, Option.isSome_some, Option.isSome_iff_exists] at hsome
  obtain ⟨description, hget⟩ := hsome
  exact ⟨description, by rw [exec_findContainer_str, hget], h.name_of_get hget⟩

theorem exec_findContainer_of_none {name : String} (h : Represents d s)
    (hc : s.find? name = none) :
    (findContainer (.str name)).exec d = (.ok none, d) := by
  have hnone := h.has_containers name
  rw [hc, Option.isSome_none, Option.isSome_eq_false_iff, Option.isNone_iff_eq_none] at hnone
  rw [exec_findContainer_str, hnone]

theorem exec_getContainer_of_find {name : String} {c : Collection} (h : Represents d s)
    (hc : s.find? name = some c) :
    ∃ description, (getContainer (.str name)).exec d = (.ok description, d) ∧
      description.name = name := by
  obtain ⟨description, hfind, hname⟩ := h.exec_findContainer_of_some hc
  refine ⟨description, ?_, hname⟩
  rw [getContainer, exec_bind_of_ok hfind]
  rfl

/-- A container that the store has not is refused as the store refuses
it. -/
theorem exec_getContainer_of_error {container : Json} {e : StoreError} (h : Represents d s)
    (he : s.locate container = .error e) :
    (getContainer container).exec d = (.error (.refused (.store e)), d) := by
  cases container with
  | str name =>
      cases hc : s.find? name with
      | some c =>
          simp only [Store.locate, Store.nameOf, bind, Except.bind, hc] at he
          cases he
      | none =>
          simp only [Store.locate, Store.nameOf, bind, Except.bind, hc] at he
          rw [getContainer, exec_bind_of_ok (h.exec_findContainer_of_none hc),
            ← Except.error.inj he]
          rfl
  | _ =>
      cases he
      rfl

/-- Under the name of a container of the store stand its documents. -/
theorem exec_documentsAt (h : Represents d s) {name : String} {c : Collection}
    (hc : s.find? name = some c) :
    (documentsAt (.str name)).exec d = (.ok (name, c.table), d) := by
  have hget := h.get_documents name
  rw [hc, Option.map_some] at hget
  rw [documentsAt, exec_bind_of_ok (exec_get d), hget]
  rfl

theorem exec_getDocuments (h : Represents d s) {name : String} {c : Collection}
    (hc : s.find? name = some c) :
    (getDocuments (.str name)).exec d = (.ok (name, c.table), d) := by
  obtain ⟨description, hdescription, -⟩ := h.exec_getContainer_of_find hc
  rw [getDocuments, exec_bind_of_ok hdescription, h.exec_documentsAt hc]

theorem exec_getDocuments_of_error {container : Json} {e : StoreError} (h : Represents d s)
    (he : s.locate container = .error e) :
    (getDocuments container).exec d = (.error (.refused (.store e)), d) := by
  rw [getDocuments, exec_bind_of_error (h.exec_getContainer_of_error he)]

/-! ## Writing -/

/-- Writing a new collection under a name into both dictionaries. -/
theorem put (h : Represents d s) {name : String} (c : Collection)
    (hname : ContainerName.Allowed name) {description : ContainerDescription}
    (hdescription : description.name = name) :
    Represents ⟨d.containers.put name description, d.documents.put name c.table⟩
      (s.put name c hname) where
  names := by
    have hhas : d.containers.has name = s.collections.has name :=
      Table.has_eq_of_keys_eq h.names name
    show (d.containers.put name description).keys = (s.collections.put name c).keys
    rw [Table.keys_put, Table.keys_put, hhas, h.names]
    rfl
  described := by
    intro e he
    rcases Table.mem_put he with hold | rfl
    · exact h.described e hold
    · exact hdescription
  documents := by
    show d.documents.put name c.table = _
    rw [h.documents, Table.put_map]
    rfl

/-- Writing the documents of a container that is there. -/
theorem put_documents (h : Represents d s) {name : String} {old : Collection} (c : Collection)
    (hname : ContainerName.Allowed name) (hold : s.find? name = some old) :
    Represents ⟨d.containers, d.documents.put name c.table⟩ (s.put name c hname) where
  names := by
    have hhas : s.collections.has name = true := by
      show (s.find? name).isSome = true
      rw [hold]
      rfl
    show d.containers.keys = (s.collections.put name c).keys
    rw [Table.keys_put, hhas, h.names]
    rfl
  described := h.described
  documents := by
    show d.documents.put name c.table = _
    rw [h.documents, Table.put_map]
    rfl

/-! ## Calls -/

/-- A container as the store shows it: by its name. -/
def shown (c : ContainerDescription) : Json :=
  .str c.name

/-- The answers agree, and the dictionaries still represent the store. -/
def Agree (after : Except CallFailure (Response ContainerDescription) × Dictionaries)
    (step : Except CallFailure (Response Json) × Database) : Prop :=
  after.1.map (Response.map shown) = step.1 ∧ Represents after.2 step.2.store

/-- A failed call agrees with a refusal. -/
theorem agree_error (h : Represents d s) (settings : Settings) {e : CallFailure} :
    Agree (.error e, d) (.error e, ⟨settings, s⟩) :=
  ⟨rfl, h⟩

/-- A text as the name of a container: it is there, or it is allowed and
made, or it is refused. -/
theorem agree_addContainer_str (h : Represents d s) (settings : Settings) (supply : Supply)
    (name : String) :
    Agree ((Dictionaries.call settings supply (.addContainer (.str name))).exec d)
      (Database.call ⟨settings, s⟩ supply (.addContainer (.str name))) := by
  cases hc : s.find? name with
  | some c =>
      obtain ⟨description, hfind, rfl⟩ := h.exec_findContainer_of_some hc
      have hadd : (Dictionaries.addContainer supply (.str description.name)).exec d =
          (.ok description, d) := by
        rw [Dictionaries.addContainer, exec_bind_of_ok hfind]
        rfl
      rw [Dictionaries.call, exec_bind_of_ok hadd, Database.call, Store.addContainer_of_find? hc]
      exact ⟨rfl, h⟩
  | none =>
      have hfind := h.exec_findContainer_of_none hc
      cases hrefusal : ContainerName.refusal? name with
      | some reason =>
          have hadd : (Dictionaries.addContainer supply (.str name)).exec d =
              (.error (.refused (.store (.badRequest
                (.containerName (.str name) (.refused reason))))), d) := by
            rw [Dictionaries.addContainer, exec_bind_of_ok hfind]
            simp only [read_describe_of_refusal supply hrefusal]
            rfl
          rw [Dictionaries.call, exec_bind_of_error hadd, Database.call,
            Store.addContainer_of_refusal hc hrefusal]
          exact h.agree_error settings
      | none =>
          obtain ⟨c, hread, rfl⟩ : ∃ c,
              ContainerDescription.read (.ofJson (describe supply (.str name))) = .valid c ∧
                c.name = name := ⟨_, read_describe_of_allowed supply hrefusal, rfl⟩
          have hadd : (Dictionaries.addContainer supply (.str c.name)).exec d =
              (.ok c, ⟨d.containers.put c.name c, d.documents.put c.name []⟩) := by
            rw [Dictionaries.addContainer, exec_bind_of_ok hfind]
            simp only [hread]
            rfl
          rw [Dictionaries.call, exec_bind_of_ok hadd]
          simp only [Database.call, Store.addContainer_of_allowed hc hrefusal]
          exact ⟨rfl, h.put .empty hrefusal rfl⟩

theorem agree_addContainer (h : Represents d s) (settings : Settings) (supply : Supply)
    (container : Json) :
    Agree ((Dictionaries.call settings supply (.addContainer container)).exec d)
      (Database.call ⟨settings, s⟩ supply (.addContainer container)) := by
  cases container with
  | str name => exact h.agree_addContainer_str settings supply name
  | arr elements => exact h.agree_error settings
  | obj fields => exact h.agree_error settings
  | null => exact h.agree_error settings
  | bool b => exact h.agree_error settings
  | int n => exact h.agree_error settings
  | float x => exact h.agree_error settings

theorem agree_addItem (h : Represents d s) (settings : Settings) (supply : Supply)
    (container item : Json) :
    Agree ((Dictionaries.call settings supply (.addItem container item)).exec d)
      (Database.call ⟨settings, s⟩ supply (.addItem container item)) := by
  cases hitem : Document.ofItem supply.id item with
  | error e =>
      have hadd : (Dictionaries.addItem supply container item).exec d =
          (.error (.refused (.store (.badRequest (.item e)))), d) := by
        rw [Dictionaries.addItem, exec_bind_of_error]
        rw [exec_liftExcept, hitem]
        rfl
      rw [Dictionaries.call, exec_bind_of_error hadd]
      simp only [Database.call, Store.addItem_of_error hitem]
      exact h.agree_error settings
  | ok document =>
      have hdocument : (liftExcept ((Document.ofItem supply.id item).mapError fun e =>
          CallFailure.refused (.store (.badRequest (.item e)))) : Stateful Document).exec d =
            (.ok document, d) := by
        rw [exec_liftExcept, hitem]
        rfl
      rcases s.locate_cases container with ⟨name, c, rfl, hc, hlocate⟩ | ⟨e, he⟩
      · have hfound := h.exec_getDocuments hc
        by_cases hmem : document.id ∈ c.ids
        · have hadd : (Dictionaries.addItem supply (.str name) item).exec d =
              (.error (.refused (.store (.documentExists document.id name))), d) := by
            rw [Dictionaries.addItem, exec_bind_of_ok hdocument, exec_bind_of_ok hfound]
            simp only [(c.has_table_iff document.id).2 hmem, if_true]
            rfl
          rw [Dictionaries.call, exec_bind_of_error hadd]
          simp only [Database.call, Store.addItem_of_ofItem hitem, Store.addDocument_of_mem hc hmem,
            Except.map]
          exact h.agree_error settings
        · have hhas : ¬ c.table.has document.id.text = true := mt (c.has_table_iff _).1 hmem
          have hadd : (Dictionaries.addItem supply (.str name) item).exec d =
              (.ok document.toJson,
                ⟨d.containers, d.documents.put name (c.add document hmem).table⟩) := by
            rw [Dictionaries.addItem, exec_bind_of_ok hdocument, exec_bind_of_ok hfound,
              ← c.put_table document hmem]
            simp only [hhas]
            rfl
          rw [Dictionaries.call, exec_bind_of_ok hadd]
          simp only [Database.call, Store.addItem_of_ofItem hitem,
            Store.addDocument_of_not_mem hc hmem, Except.map]
          exact ⟨rfl, h.put_documents _ (Store.allowed_of_find? hc) hc⟩
      · have hadd : (Dictionaries.addItem supply container item).exec d =
            (.error (.refused (.store e)), d) := by
          rw [Dictionaries.addItem, exec_bind_of_ok hdocument,
            exec_bind_of_error (h.exec_getDocuments_of_error he)]
        rw [Dictionaries.call, exec_bind_of_error hadd]
        simp only [Database.call, Store.addItem_of_ofItem hitem, Store.addDocument_of_error he,
          Except.map]
        exact h.agree_error settings

theorem documents_of_locate {settings : Settings} {container : Json} {c : Collection}
    (hc : s.locate container = .ok c) :
    (Database.mk settings s).documents container = .ok c.contents := by
  rw [Database.documents, hc]

theorem documents_of_error {settings : Settings} {container : Json} {e : StoreError}
    (he : s.locate container = .error e) :
    (Database.mk settings s).documents container = .error (.store e) := by
  rw [Database.documents, he]

/-- A query gives the same answer on both sides. -/
theorem exec_query (h : Represents d s) (settings : Settings) (container text parameters : Json) :
    (Dictionaries.query settings container text parameters).exec d =
      ((Database.mk settings s).answerQuery container text parameters, d) := by
  rw [Dictionaries.query, Database.answerQuery_eq]
  rcases s.locate_cases container with ⟨name, c, rfl, hc, hlocate⟩ | ⟨e, he⟩
  · rw [exec_bind_of_ok (h.exec_getDocuments hc), documents_of_locate hlocate]
    cases htext : queryText text with
    | error e => rfl
    | ok text => rw [exec_bind_of_ok (exec_liftExcept _ d), exec_liftExcept, c.values_table]; rfl
  · rw [exec_bind_of_error (h.exec_getDocuments_of_error he), documents_of_error he]
    rfl

/-- A page request gives the same answer on both sides, under the same
container. -/
theorem exec_queryPage (h : Represents d s) (settings : Settings)
    (container text size token parameters : Json) :
    ∃ answer, (Dictionaries.queryPage settings container text size token parameters).exec d =
        (answer, d) ∧
      answer.map (fun found => Response.page (shown found.1) found.2) =
        ((Database.mk settings s).answerPage container text size token parameters).map
          (Response.page container) := by
  rw [Dictionaries.queryPage, Database.answerPage_eq]
  cases checkedSize settings size with
  | error e => exact ⟨.error e, rfl, rfl⟩
  | ok n =>
      rw [exec_bind_of_ok (exec_liftExcept _ d)]
      rcases s.locate_cases container with ⟨name, c, rfl, hc, hlocate⟩ | ⟨e, he⟩
      · obtain ⟨description, hdescription, rfl⟩ := h.exec_getContainer_of_find hc
        rw [exec_bind_of_ok hdescription, exec_bind_of_ok (h.exec_documentsAt hc),
          documents_of_locate hlocate]
        cases pageText text with
        | error e => exact ⟨.error e, rfl, rfl⟩
        | ok text =>
            rw [exec_bind_of_ok (exec_liftExcept _ d)]
            cases tokenText token with
            | error e => exact ⟨.error e, rfl, rfl⟩
            | ok token =>
                rw [exec_bind_of_ok (exec_liftExcept _ d), c.values_table]
                show ∃ answer, _ ∧ _ = Except.map _ ((servePage .standard settings.query.strict
                  text c.contents (.int n) token parameters).outcome.mapError _)
                cases (servePage .standard settings.query.strict text c.contents (.int n) token
                  parameters).outcome with
                | error e => exact ⟨.error (.refused (.page e)), rfl, rfl⟩
                | ok page => exact ⟨.ok (description, page), rfl, rfl⟩
      · rw [exec_bind_of_error (h.exec_getContainer_of_error he), documents_of_error he]
        exact ⟨_, rfl, rfl⟩

theorem agree_listContainers (h : Represents d s) (settings : Settings) (supply : Supply) :
    Agree ((Dictionaries.call settings supply .listContainers).exec d)
      (Database.call ⟨settings, s⟩ supply .listContainers) := by
  refine ⟨?_, h⟩
  have hshown : d.containers.values.map shown = s.names.map .str := by
    rw [← h.names, Table.values, Table.keys, List.map_map, List.map_map]
    refine List.map_congr_left fun e he => ?_
    show Json.str e.2.name = .str e.1
    rw [h.described e he]
  show Except.ok (Response.containers (d.containers.values.map shown)) = _
  rw [hshown]
  rfl

/-- One call: the same answer, and the dictionaries after it represent
the store after it. -/
theorem agree_call (h : Represents d s) (settings : Settings) (supply : Supply) (c : Call) :
    Agree ((Dictionaries.call settings supply c).exec d)
      (Database.call ⟨settings, s⟩ supply c) := by
  cases c with
  | addContainer name => exact h.agree_addContainer settings supply name
  | addItem container item => exact h.agree_addItem settings supply container item
  | query container text parameters =>
      have hquery := h.exec_query settings container text parameters
      rw [Dictionaries.call, Database.call]
      cases hanswer : (Database.mk settings s).answerQuery container text parameters with
      | error e =>
          rw [hanswer] at hquery
          rw [exec_bind_of_error hquery]
          exact h.agree_error settings
      | ok documents =>
          rw [hanswer] at hquery
          rw [exec_bind_of_ok hquery]
          exact ⟨rfl, h⟩
  | queryPage container text size token parameters =>
      obtain ⟨answer, hpage, hanswer⟩ := h.exec_queryPage settings container text size token
        parameters
      rw [Dictionaries.call, Database.call, ← hanswer]
      cases answer with
      | error e =>
          rw [exec_bind_of_error hpage]
          exact h.agree_error settings
      | ok found =>
          rw [exec_bind_of_ok hpage]
          exact ⟨rfl, h⟩
  | listContainers => exact h.agree_listContainers settings supply
  | clear => exact ⟨rfl, .empty⟩

end Represents

/-! ## Runs -/

namespace Dictionaries

/-- Calls one after the other: the answers, and the dictionaries after
them. -/
def runCalls (settings : Settings) (d : Dictionaries) :
    List (Supply × Call) → List (Except CallFailure (Response ContainerDescription)) × Dictionaries
  | [] => ([], d)
  | (supply, c) :: rest =>
    let (answer, d) := (call settings supply c).exec d
    let (answers, d) := runCalls settings d rest
    (answer :: answers, d)

theorem runCalls_cons (settings : Settings) (d : Dictionaries) (supply : Supply) (c : Call)
    (rest : List (Supply × Call)) :
    runCalls settings d ((supply, c) :: rest) =
      (((call settings supply c).exec d).1 ::
          (runCalls settings ((call settings supply c).exec d).2 rest).1,
        (runCalls settings ((call settings supply c).exec d).2 rest).2) := rfl

end Dictionaries

/-- A run gives the same answers on both sides, and the dictionaries
after it represent the store after it. -/
theorem Represents.run {d : Dictionaries} {db : Database} (h : Represents d db.store)
    (calls : List (Supply × Call)) :
    (Dictionaries.runCalls db.settings d calls).1.map (Except.map (Response.map Represents.shown)) =
        (db.runCalls calls).1 ∧
      Represents (Dictionaries.runCalls db.settings d calls).2 (db.runCalls calls).2.store := by
  induction calls generalizing d db with
  | nil => exact ⟨rfl, h⟩
  | cons first rest ih =>
      obtain ⟨supply, c⟩ := first
      obtain ⟨hanswer, hafter⟩ := h.agree_call db.settings supply c
      obtain ⟨hanswers, hend⟩ := ih hafter
      rw [Database.settings_call] at hanswers hend
      rw [Dictionaries.runCalls_cons, Database.runCalls_cons, List.map_cons]
      exact ⟨List.cons_eq_cons.2 ⟨hanswer, hanswers⟩, hend⟩

end DocStore
