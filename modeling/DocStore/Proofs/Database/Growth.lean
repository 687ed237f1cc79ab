import DocStore.Proofs.Database.Call
import DocStore.Proofs.Store.Outcome

/-!
# Containers grow at their end

Calls other than clearing take nothing away: every container stays, and
new documents come behind those that were there (`Store.Grows`). A store
grows with each request, a database with each call and with calls in a
row (`Database.Grows`).
-/

namespace DocStore

/-- Every container is still there, with its documents in front. -/
def Store.Grows (s s' : Store) : Prop :=
  ∀ name c, s.find? name = some c →
    ∃ c', s'.find? name = some c' ∧ c.contents <+: c'.contents

namespace Store.Grows

variable {s s' s'' : Store}

theorem refl (s : Store) : s.Grows s :=
  fun _ c hc => ⟨c, hc, List.prefix_refl _⟩

theorem trans (h : s.Grows s') (h' : s'.Grows s'') : s.Grows s'' := by
  intro name c hc
  obtain ⟨c', hc', hfront⟩ := h name c hc
  obtain ⟨c'', hc'', hfront'⟩ := h' name c' hc'
  exact ⟨c'', hc'', hfront.trans hfront'⟩

/-- A collection is written that has the documents of the old one, if
there was one, in front. -/
theorem put {name : String} {c : Collection} (hname : ContainerName.Allowed name)
    (h : ∀ old, s.find? name = some old → old.contents <+: c.contents) :
    s.Grows (s.put name c hname) := by
  intro other old hold
  by_cases hother : other = name
  · subst hother
    exact ⟨c, s.find?_put_self _ c hname, h old hold⟩
  · exact ⟨old, by rw [s.find?_put_of_ne c hname hother, hold], List.prefix_refl _⟩

theorem addContainer {container : Json} (h : (s.addContainer container).outcome = .ok s') :
    s.Grows s' := by
  cases container with
  | str name =>
      cases hname : s.find? name with
      | some c =>
          rw [Store.addContainer_of_find? hname] at h
          obtain rfl := Except.ok.inj h
          exact refl s
      | none =>
          cases hrefusal : ContainerName.refusal? name with
          | some reason =>
              rw [Store.addContainer_of_refusal hname hrefusal] at h
              cases h
          | none =>
              rw [Store.addContainer_of_allowed hname hrefusal] at h
              obtain rfl := Except.ok.inj h
              exact put hrefusal fun old hold => by rw [hname] at hold; cases hold
  | _ => cases h

theorem addDocument {container : Json} {d : Document}
    (h : (s.addDocument container d).outcome = .ok s') : s.Grows s' := by
  rcases s.locate_cases container with ⟨name, c, rfl, hc, -⟩ | ⟨e, he⟩
  · by_cases hmem : d.id ∈ c.ids
    · rw [Store.addDocument_of_mem hc hmem] at h
      cases h
    · rw [Store.addDocument_of_not_mem hc hmem] at h
      obtain rfl := Except.ok.inj h
      refine put _ fun old hold => ?_
      obtain rfl := Option.some.inj (hc.symm.trans hold)
      rw [Collection.contents_add]
      exact List.prefix_append ..
  · rw [Store.addDocument_of_error he] at h
    cases h

theorem addItem {fresh : DocumentId} {container item : Json} {d : Document}
    (h : (s.addItem fresh container item).outcome = .ok (s', d)) : s.Grows s' := by
  cases hitem : Document.ofItem fresh item with
  | error e =>
      rw [Store.addItem_of_error hitem] at h
      cases h
  | ok document =>
      rw [Store.addItem_of_ofItem hitem] at h
      cases hadd : (s.addDocument container document).outcome with
      | error e =>
          rw [hadd] at h
          cases h
      | ok s'' =>
          rw [hadd] at h
          cases h
          exact addDocument hadd

end Store.Grows

namespace Database

/-- No call but clearing takes anything away. -/
theorem grows_call (db : Database) (supply : Supply) {c : Call} (hclear : c ≠ .clear) :
    db.store.Grows (db.call supply c).2.store := by
  cases c with
  | addContainer name =>
      simp only [call]
      split
      · rename_i h
        exact .addContainer h
      · exact .refl _
  | addItem container item =>
      simp only [call]
      split
      · rename_i h
        exact .addItem h
      · exact .refl _
  | query | queryPage | listContainers => exact .refl _
  | clear => exact absurd rfl hclear

/-- Calls in a row, none of them clearing. -/
theorem grows_runCalls (db : Database) {calls : List (Supply × Call)}
    (hclear : ∀ c ∈ calls, c.2 ≠ .clear) : db.store.Grows (db.runCalls calls).2.store := by
  induction calls generalizing db with
  | nil => exact .refl _
  | cons first rest ih =>
      obtain ⟨supply, c⟩ := first
      rw [runCalls_cons]
      exact (db.grows_call supply (hclear _ (List.mem_cons_self ..))).trans
        (ih _ fun c hc => hclear c (List.mem_cons_of_mem _ hc))

theorem settings_runCalls (db : Database) (calls : List (Supply × Call)) :
    (db.runCalls calls).2.settings = db.settings := by
  induction calls generalizing db with
  | nil => rfl
  | cons first rest ih =>
      obtain ⟨supply, c⟩ := first
      rw [runCalls_cons, ih, settings_call]

/-- A database with the settings of another, in which every container
has grown. -/
structure Grows (db db' : Database) : Prop where
  settings : db'.settings = db.settings
  store : db.store.Grows db'.store

theorem Grows.runCalls (db : Database) {calls : List (Supply × Call)}
    (hclear : ∀ c ∈ calls, c.2 ≠ .clear) : db.Grows (db.runCalls calls).2 :=
  ⟨db.settings_runCalls calls, db.grows_runCalls hclear⟩

/-- The documents of a container are the first of those that it has
later. -/
theorem Grows.exists_append {db db' : Database} (h : db.Grows db') {container : Json}
    {documents : List Json} (hdocuments : db.documents container = .ok documents) :
    ∃ more, db'.documents container = .ok (documents ++ more) := by
  unfold Database.documents at *
  rcases db.store.locate_cases container with ⟨name, c, rfl, hc, hlocate⟩ | ⟨e, he⟩
  · rw [hlocate] at hdocuments
    obtain rfl := Except.ok.inj hdocuments
    obtain ⟨c', hc', more, hmore⟩ := h.store name c hc
    rcases db'.store.locate_cases (.str name) with ⟨_, c'', ⟨⟩, hc'', hlocate'⟩ | ⟨e, he⟩
    · obtain rfl := Option.some.inj (hc'.symm.trans hc'')
      exact ⟨more, by rw [hlocate', hmore]⟩
    · simp only [Store.locate, Store.nameOf, ok_bind, hc'] at he
      cases he
  · rw [he] at hdocuments
    cases hdocuments

end Database

end DocStore
