import DocStore.Proofs.Database.Refinement
import DocStore.Proofs.Query.Execution
import Mathlib.Data.List.Forall2
import Mathlib.Data.List.Nodup

/-!
# What a run leaves in the store

A ledger is kept from the outside, from calls and answers alone: a
container holds nothing before it is made, from then on the items that
were accepted for it, in order, and nothing again once all is cleared
(`ledger`). After every run, whatever was called and whatever failed,
the dictionaries are in order (`Dictionaries.WellFormed`) and a query
for everything in a container gives the items of its ledger, each as it
was submitted but for its id (`StoredAs`).

The step lemma `holds_call` says that a call changes the store as it
changes the ledger, the run lemma `holds_run` follows by induction, and
the simulation of the dictionaries carries both over to what the program
keeps.
-/

namespace DocStore

/-! ## Items and documents -/

/-- The document is the item with its id in front, which is `fresh` if
the item brings none. -/
def StoredAs (fresh : DocumentId) (item document : Json) : Prop :=
  ∃ (fields : Fields) (id : String), item = .obj fields ∧ id ≠ "" ∧
    document = .obj (("id", .str id) :: fields.filter fun f => f.1 ≠ "id") ∧
    (fields.get? "id" = some (.str id) ∨
      id = fresh.text ∧ (fields.get? "id" = none ∨ fields.get? "id" = some .null ∨
        fields.get? "id" = some (.str "")))

theorem storedAs_of_ofItem {fresh : DocumentId} {item : Json} {d : Document}
    (h : Document.ofItem fresh item = .ok d) : StoredAs fresh item d.toJson := by
  cases item with
  | obj fields =>
      simp only [Document.ofItem] at h
      cases hgiven : Document.givenId? fields with
      | error e =>
          rw [hgiven] at h
          cases h
      | ok given? =>
          rw [hgiven] at h
          obtain rfl := (Except.ok.inj h).symm
          refine ⟨fields, (given?.getD fresh).text, rfl, (given?.getD fresh).nonempty, rfl, ?_⟩
          unfold Document.givenId? at hgiven
          split at hgiven
          · rename_i hget
            obtain rfl := (Except.ok.inj hgiven).symm
            exact Or.inr ⟨rfl, Or.inl hget⟩
          · rename_i hget
            obtain rfl := (Except.ok.inj hgiven).symm
            exact Or.inr ⟨rfl, Or.inr (Or.inl hget)⟩
          · rename_i s hget
            by_cases hs : s = ""
            · subst hs
              obtain rfl := (Except.ok.inj hgiven).symm
              exact Or.inr ⟨rfl, Or.inr (Or.inr hget)⟩
            · rw [dif_pos hs] at hgiven
              obtain rfl := (Except.ok.inj hgiven).symm
              exact Or.inl hget
          · cases hgiven
  | _ => cases h

/-! ## The ledger of a container -/

/-- What the ledger of a container says after a call that was answered
or failed. -/
def ledgerStep (name : String) (held : Option (List (DocumentId × Json)))
    (entry : (Supply × Call) × Bool) : Option (List (DocumentId × Json)) :=
  match entry with
  | ((_, .addContainer (.str other)), true) => if other = name then some (held.getD []) else held
  | ((supply, .addItem (.str other) item), true) =>
    if other = name then held.map (· ++ [(supply.id, item)]) else held
  | ((_, .clear), true) => none
  | _ => held

/-- The items accepted for a container since it was made, each with the
id that was supplied; none if it is not there. -/
def ledger {κ : Type} (name : String) (calls : List (Supply × Call))
    (answers : List (Except CallFailure (Response κ))) : Option (List (DocumentId × Json)) :=
  (calls.zip (answers.map Except.isOk)).foldl (ledgerStep name) none

/-- A container holds the items of its ledger. -/
def Holds (s : Store) (name : String) (held : Option (List (DocumentId × Json))) : Prop :=
  Option.Rel (fun items c => List.Forall₂ (fun e v => StoredAs e.1 e.2 v) items c.contents)
    held (s.find? name)

theorem holds_empty (name : String) : Holds .empty name none := Option.Rel.none

/-- Writing a collection under another name. -/
theorem Holds.put_of_ne {s : Store} {name other : String}
    {held : Option (List (DocumentId × Json))} (h : Holds s name held) (c : Collection)
    (hother : ContainerName.Allowed other) (hne : other ≠ name) :
    Holds (s.put other c hother) name held := by
  unfold Holds
  rw [Store.find?_put_of_ne s c hother (Ne.symm hne)]
  exact h

/-- Writing the collection under the name. -/
theorem holds_put_self {s : Store} {name : String} {items : List (DocumentId × Json)}
    {c : Collection} (hname : ContainerName.Allowed name)
    (h : List.Forall₂ (fun e v => StoredAs e.1 e.2 v) items c.contents) :
    Holds (s.put name c hname) name (some items) := by
  unfold Holds
  rw [Store.find?_put_self]
  exact Option.Rel.some h

/-- What is held is what is found. -/
theorem Holds.cases_of_find {s : Store} {name : String} {c : Collection}
    {held : Option (List (DocumentId × Json))} (h : Holds s name held)
    (hc : s.find? name = some c) :
    ∃ items, held = some items ∧
      List.Forall₂ (fun e v => StoredAs e.1 e.2 v) items c.contents := by
  unfold Holds at h
  rw [hc] at h
  cases h with
  | some hitems => exact ⟨_, rfl, hitems⟩

theorem Holds.eq_none {s : Store} {name : String} {held : Option (List (DocumentId × Json))}
    (h : Holds s name held) (hc : s.find? name = none) : held = none := by
  unfold Holds at h
  rw [hc] at h
  cases h
  rfl

/-- A container is there exactly if its ledger says so. -/
theorem Holds.isSome_eq {s : Store} {name : String} {held : Option (List (DocumentId × Json))}
    (h : Holds s name held) : (s.find? name).isSome = held.isSome := by
  unfold Holds at h
  cases hc : s.find? name with
  | none =>
      rw [hc] at h
      cases h
      rfl
  | some c =>
      rw [hc] at h
      cases h
      rfl

/-- A new container holds nothing, one that is there what it held. -/
theorem holds_addContainer {s s' : Store} {name other : String}
    {held : Option (List (DocumentId × Json))} (h : Holds s name held)
    (hs : (s.addContainer (.str other)).outcome = .ok s') :
    Holds s' name (if other = name then some (held.getD []) else held) := by
  cases hc : s.find? other with
  | some c =>
      rw [Store.addContainer_of_find? hc] at hs
      obtain rfl := Except.ok.inj hs
      by_cases hname : other = name
      · subst hname
        obtain ⟨items, rfl, -⟩ := h.cases_of_find hc
        rwa [if_pos rfl]
      · rwa [if_neg hname]
  | none =>
      cases hrefusal : ContainerName.refusal? other with
      | some reason =>
          rw [Store.addContainer_of_refusal hc hrefusal] at hs
          cases hs
      | none =>
          rw [Store.addContainer_of_allowed hc hrefusal] at hs
          obtain rfl := Except.ok.inj hs
          by_cases hname : other = name
          · subst hname
            obtain rfl := h.eq_none hc
            rw [if_pos rfl]
            exact holds_put_self hrefusal List.Forall₂.nil
          · rw [if_neg hname]
            exact h.put_of_ne _ hrefusal hname

/-- An accepted item comes behind what the container held. -/
theorem holds_addItem {s s' : Store} {name other : String} {fresh : DocumentId} {item : Json}
    {d : Document} {held : Option (List (DocumentId × Json))} (h : Holds s name held)
    (hs : (s.addItem fresh (.str other) item).outcome = .ok (s', d)) :
    Holds s' name (if other = name then held.map (· ++ [(fresh, item)]) else held) := by
  cases hitem : Document.ofItem fresh item with
  | error e =>
      rw [Store.addItem_of_error hitem] at hs
      cases hs
  | ok document =>
      rw [Store.addItem_of_ofItem hitem] at hs
      rcases s.locate_cases (.str other) with ⟨_, c, hother, hc, -⟩ | ⟨e, he⟩
      · obtain rfl := Json.str.inj hother
        by_cases hmem : document.id ∈ c.ids
        · rw [Store.addDocument_of_mem hc hmem] at hs
          cases hs
        · rw [Store.addDocument_of_not_mem hc hmem] at hs
          cases hs
          by_cases hname : other = name
          · subst hname
            obtain ⟨items, rfl, hitems⟩ := h.cases_of_find hc
            rw [if_pos rfl]
            refine holds_put_self _ ?_
            rw [Collection.contents_add]
            exact List.rel_append hitems
              (List.Forall₂.cons (storedAs_of_ofItem hitem) List.Forall₂.nil)
          · rw [if_neg hname]
            exact h.put_of_ne _ _ hname
      · rw [Store.addDocument_of_error he] at hs
        cases hs

/-- A failed call changes no ledger, and neither does one that reads. -/
theorem ledgerStep_false (name : String) (held : Option (List (DocumentId × Json)))
    (entry : Supply × Call) : ledgerStep name held (entry, false) = held := by
  obtain ⟨supply, c⟩ := entry
  unfold ledgerStep
  split
  all_goals first
    | rfl
    | rename_i heq; cases heq

theorem ledgerStep_of_reads (name : String) (held : Option (List (DocumentId × Json)))
    (supply : Supply) {c : Call} (h : c.Reads) (answered : Bool) :
    ledgerStep name held ((supply, c), answered) = held := by
  match c, h with
  | .query .., _ => rfl
  | .queryPage .., _ => rfl
  | .listContainers, _ => rfl

/-- A call changes what a container holds as it changes the ledger. -/
theorem holds_call {db : Database} {name : String}
    {held : Option (List (DocumentId × Json))} (h : Holds db.store name held) (supply : Supply)
    (c : Call) :
    Holds (db.call supply c).2.store name
      (ledgerStep name held ((supply, c), (db.call supply c).1.isOk)) := by
  cases c with
  | addContainer container =>
      simp only [Database.call]
      cases hs : (db.store.addContainer container).outcome with
      | error e => exact (ledgerStep_false name held _).symm ▸ h
      | ok s' =>
          cases container with
          | str other => exact holds_addContainer h hs
          | _ => cases hs
  | addItem container item =>
      simp only [Database.call]
      cases hs : (db.store.addItem supply.id container item).outcome with
      | error e => exact (ledgerStep_false name held _).symm ▸ h
      | ok added =>
          obtain ⟨other, rfl⟩ := Store.exists_name_of_addItem hs
          exact holds_addItem h hs
  | clear => exact holds_empty name
  | query container text parameters =>
      rw [ledgerStep_of_reads (c := .query container text parameters) name held supply trivial]
      exact h
  | queryPage container text size token parameters =>
      rw [ledgerStep_of_reads (c := .queryPage container text size token parameters) name held
        supply trivial]
      exact h
  | listContainers => exact h

theorem holds_run {db : Database} {name : String}
    {held : Option (List (DocumentId × Json))} (h : Holds db.store name held)
    (calls : List (Supply × Call)) :
    Holds (db.runCalls calls).2.store name
      ((calls.zip ((db.runCalls calls).1.map Except.isOk)).foldl (ledgerStep name) held) := by
  induction calls generalizing db held with
  | nil => exact h
  | cons first rest ih =>
      obtain ⟨supply, c⟩ := first
      rw [Database.runCalls_cons, List.map_cons, List.zip_cons_cons, List.foldl_cons]
      exact ih (holds_call h supply c)

/-! ## The dictionaries in order -/

namespace Dictionaries

/-- The dictionaries are in order. -/
structure WellFormed (d : Dictionaries) : Prop where
  /-- Both have the same keys in the same order. -/
  same_keys : d.containers.keys = d.documents.keys
  /-- No key stands twice. -/
  keys_nodup : d.documents.keys.Nodup
  /-- Every key is an allowed name. -/
  allowed : ∀ name ∈ d.containers.keys, ContainerName.Allowed name
  /-- Every document is an object with its id in front, a text that is
  not empty and under which it stands. -/
  stored : ∀ name documents, (name, documents) ∈ d.documents → ∀ id v, (id, v) ∈ documents →
    id ≠ "" ∧ ∃ fields, v = .obj (("id", .str id) :: fields)
  /-- No id stands twice in a container. -/
  ids_nodup : ∀ name documents, (name, documents) ∈ d.documents → documents.keys.Nodup

end Dictionaries

/-- Dictionaries that represent a store are in order. -/
theorem Represents.wellFormed {d : Dictionaries} {s : Store} (h : Represents d s) :
    d.WellFormed := by
  have hkeys : d.documents.keys = s.names := by
    rw [h.documents, Table.keys_map]
    rfl
  have htable : ∀ name documents, (name, documents) ∈ d.documents →
      ∃ c : Collection, documents = c.table := by
    intro name documents hmem
    rw [h.documents] at hmem
    obtain ⟨e, -, he⟩ := List.mem_map.1 hmem
    exact ⟨e.2, (congrArg Prod.snd he).symm⟩
  refine ⟨by rw [h.names, hkeys], hkeys ▸ s.names_nodup, ?_, ?_, ?_⟩
  · intro name hname
    rw [h.names] at hname
    exact s.names_allowed name hname
  · intro name documents hmem id v hv
    obtain ⟨c, rfl⟩ := htable name documents hmem
    obtain ⟨document, -, hdocument⟩ := List.mem_map.1 hv
    cases hdocument
    exact ⟨document.id.nonempty, document.others, rfl⟩
  · intro name documents hmem
    obtain ⟨c, rfl⟩ := htable name documents hmem
    rw [Collection.keys_table]
    exact List.Nodup.map (fun _ _ => DocumentId.text_injective) c.ids_nodup

/-! ## Asking for everything -/

/-- The query that selects all documents of a container. -/
def selectAll : String := "SELECT * FROM c"

theorem parse_selectAll :
    Query.parse .standard selectAll .null =
      .ok ⟨selectAll, .everything, "c", none, none, [], none⟩ := rfl

/-- Everything is selected, in order. -/
theorem runQuery_selectAll (strict : Bool) (documents : List Json) :
    (runQuery .standard strict selectAll .null documents).outcome = .ok documents :=
  runQuery_eq_ok_iff.mpr ⟨_, parse_selectAll, rfl⟩

/-- A query for everything in a container gives the items of its
ledger. -/
theorem query_of_holds {d : Dictionaries} {s : Store} {name : String}
    {items : List (DocumentId × Json)} (h : Represents d s) (hholds : Holds s name (some items))
    (settings : Settings) (supply : Supply) :
    ∃ documents,
      ((Dictionaries.call settings supply
        (.query (.str name) (.str selectAll) .null)).exec d).1 = .ok (.results documents) ∧
      List.Forall₂ (fun e v => StoredAs e.1 e.2 v) items documents := by
  cases hc : s.find? name with
  | none => cases hholds.eq_none hc
  | some c =>
      obtain ⟨_, heq, hitems⟩ := hholds.cases_of_find hc
      obtain rfl := Option.some.inj heq
      have hquery : (Dictionaries.query settings (.str name) (.str selectAll) .null).exec d =
          (.ok c.contents, d) := by
        rw [Dictionaries.query, Stateful.exec_bind_of_ok (h.exec_getDocuments hc)]
        have htext : (liftExcept (queryText (.str selectAll)) : Stateful String).exec d =
            (.ok selectAll, d) := rfl
        dsimp only
        rw [Stateful.exec_bind_of_ok htext, Stateful.exec_liftExcept, c.values_table,
          runQuery_selectAll]
        rfl
      refine ⟨c.contents, ?_, hitems⟩
      rw [Dictionaries.call, Stateful.exec_bind_of_ok hquery]
      rfl

/-- Any calls, accepted or failed, on an empty database that is kept in
two dictionaries. The dictionaries answer as the database does and
represent its store; they are in order; a container is there exactly if
its ledger says so, and a query for everything in it gives the items of
the ledger; from then on, a call that reads or fails leaves the
dictionaries as they are, and no call but clearing changes the documents
of a container that it is not about. -/
theorem runCalls_faithful (settings : Settings) (calls : List (Supply × Call)) :
    let run := Dictionaries.runCalls settings ⟨[], []⟩ calls
    let reference := (Database.ofSettings settings).runCalls calls
    (run.1.map (Except.map (Response.map Represents.shown)) = reference.1 ∧
        Represents run.2 reference.2.store) ∧
      run.2.WellFormed ∧
      (∀ name, name ∈ run.2.containers.keys ↔ (ledger name calls run.1).isSome) ∧
      (∀ name items, ledger name calls run.1 = some items → ∀ supply, ∃ documents,
        ((Dictionaries.call settings supply
          (.query (.str name) (.str selectAll) .null)).exec run.2).1 = .ok (.results documents) ∧
        List.Forall₂ (fun e v => StoredAs e.1 e.2 v) items documents) ∧
      (∀ supply (c : Call),
        (c.Reads ∨ ∃ e, ((Dictionaries.call settings supply c).exec run.2).1 = .error e) →
          ((Dictionaries.call settings supply c).exec run.2).2 = run.2) ∧
      (∀ supply (c : Call) other, c ≠ .clear → c.container? ≠ some (.str other) →
        ((Dictionaries.call settings supply c).exec run.2).2.documents.get? other =
          run.2.documents.get? other) := by
  intro run reference
  have hempty : Represents ⟨[], []⟩ (Database.ofSettings settings).store := .empty
  have hagree := hempty.run calls
  have hrepresents : Represents run.2 reference.2.store := hagree.2
  have hledger : ∀ name, Holds reference.2.store name (ledger name calls run.1) := by
    intro name
    have hnothing : Holds (Database.ofSettings settings).store name none := holds_empty name
    have hholds := holds_run hnothing calls
    have hanswered : (reference.1.map Except.isOk) = run.1.map Except.isOk := by
      rw [← hagree.1, List.map_map]
      refine List.map_congr_left fun answer _ => ?_
      cases answer <;> rfl
    rw [ledger, ← hanswered]
    exact hholds
  refine ⟨hagree, hrepresents.wellFormed, ?_, ?_, ?_, ?_⟩
  · intro name
    rw [hrepresents.names, Store.names, ← Table.has_iff_mem_keys, ← (hledger name).isSome_eq]
    rfl
  · intro name items hitems supply
    have hholds := hledger name
    rw [hitems] at hholds
    exact query_of_holds hrepresents hholds settings supply
  · rintro supply c (hreads | ⟨e, he⟩)
    · exact Dictionaries.reading_call_of_reads settings supply hreads _
    · exact Dictionaries.atomic_call settings supply c _ e he
  · intro supply c other hclear hother
    exact Dictionaries.documents_call_of_ne settings supply hclear hother _

/-- A container, an item without an id, one with an id that comes last,
the same id again, and a name that is refused: the two items stay. -/
theorem runCalls_faithful_two_items :
    let supply : Supply := ⟨⟨"fresh", by decide⟩, "rid", 0⟩
    let item : Json := .obj [("n", .int 1)]
    let other : Json := .obj [("n", .int 2), ("id", .str "a")]
    let calls := [(supply, Call.addContainer (.str "c")), (supply, .addItem (.str "c") item),
      (supply, .addItem (.str "c") other), (supply, .addItem (.str "c") other),
      (supply, .addContainer (.str "a/b"))]
    ∃ documents,
      ((Dictionaries.call .standard supply (.query (.str "c") (.str selectAll) .null)).exec
        (Dictionaries.runCalls .standard ⟨[], []⟩ calls).2).1 = .ok (.results documents) ∧
      List.Forall₂ (fun e v => StoredAs e.1 e.2 v) [(supply.id, item), (supply.id, other)]
        documents := by
  intro supply item other calls
  exact (runCalls_faithful .standard calls).2.2.2.1 "c" [(supply.id, item), (supply.id, other)] rfl
    supply

end DocStore
