import DocStore.Proofs.Run
import DocStore.Proofs.Table
import DocStore.Store.Basic

/-!
# What store requests come to

The outcome of each request, case by case: a container is looked up
(`locate_cases`), made (`addContainer_of_allowed`) or left as it is, a
document is refused for its container or its id, or added
(`addDocument_of_not_mem`). What an item makes a document of is settled
before the store is looked at (`addItem_of_ofItem`).
-/

namespace DocStore

theorem DocumentId.text_injective {i j : DocumentId} (h : i.text = j.text) : i = j := by
  cases i
  cases j
  cases h
  rfl

namespace Store

variable {s : Store} {name : String} {container : Json} {c : Collection} {d : Document}

/-- A container that is found has its name given as a text; one that is
not found is refused whatever is asked of it. -/
theorem locate_cases (s : Store) (container : Json) :
    (∃ name c, container = .str name ∧ s.find? name = some c ∧ s.locate container = .ok c) ∨
      ∃ e, s.locate container = .error e := by
  cases container with
  | str name =>
      cases h : s.find? name with
      | some c =>
          refine Or.inl ⟨name, c, rfl, h, ?_⟩
          simp only [locate, nameOf, bind, Except.bind, h]
      | none =>
          refine Or.inr ⟨.containerNotFound (.str name), ?_⟩
          simp only [locate, nameOf, bind, Except.bind, h]
  | arr elements => exact Or.inr ⟨.notAName, rfl⟩
  | obj fields => exact Or.inr ⟨.notAName, rfl⟩
  | _ => exact Or.inr ⟨_, rfl⟩

theorem addContainer_of_allowed (hn : s.find? name = none)
    (h : ContainerName.refusal? name = none) :
    (s.addContainer (.str name)).outcome = .ok (s.put name .empty h) := by
  simp only [addContainer, hn]
  split
  · rename_i hsome
    cases hsome
  · split
    · rfl
    · rename_i hreason
      rw [h] at hreason
      cases hreason

theorem addDocument_of_error {e : StoreError} (h : s.locate container = .error e) :
    (s.addDocument container d).outcome = .error e := by
  cases hname : nameOf container with
  | error e' =>
      simp only [locate, hname, bind, Except.bind] at h
      rw [addDocument, Run.outcome_bind_of_error (by rw [Run.outcome_ofExcept, hname]),
        Except.error.inj h]
  | ok name =>
      simp only [locate, hname, bind, Except.bind] at h
      rw [addDocument, Run.outcome_bind_of_ok (by rw [Run.outcome_ofExcept, hname])]
      split at h
      · cases h
      · rename_i hnone
        split
        · rw [Run.outcome_fail, Except.error.inj h]
        · rename_i hsome
          rw [hnone] at hsome
          cases hsome

theorem addDocument_of_mem (hc : s.find? name = some c) (h : d.id ∈ c.ids) :
    (s.addDocument (.str name) d).outcome = .error (.documentExists d.id name) := by
  have hname : (Run.ofExcept (ν := StoreNotice) (nameOf (.str name))).outcome = .ok name := rfl
  rw [addDocument, Run.outcome_bind_of_ok hname]
  split
  · rename_i hnone
    rw [hnone] at hc
    cases hc
  · rename_i c' hc'
    obtain rfl : c = c' := Option.some.inj (hc.symm.trans hc')
    rw [dif_pos h, Run.outcome_fail]

theorem addDocument_of_not_mem (hc : s.find? name = some c) (h : d.id ∉ c.ids) :
    (s.addDocument (.str name) d).outcome =
      .ok (s.put name (c.add d h) (allowed_of_find? hc)) := by
  have hname : (Run.ofExcept (ν := StoreNotice) (nameOf (.str name))).outcome = .ok name := rfl
  rw [addDocument, Run.outcome_bind_of_ok hname]
  split
  · rename_i hnone
    rw [hnone] at hc
    cases hc
  · rename_i c' hc'
    obtain rfl : c = c' := Option.some.inj (hc.symm.trans hc')
    rw [dif_neg h]
    rfl

/-- An item that makes no document is refused. -/
theorem addItem_of_error {fresh : DocumentId} {item : Json} {e : ItemError}
    (h : Document.ofItem fresh item = .error e) :
    (s.addItem fresh container item).outcome = .error (.badRequest (.item e)) := by
  have hitem : (Run.ofExcept (ν := StoreNotice) ((Document.ofItem fresh item).mapError fun e =>
      StoreError.badRequest (.item e))).outcome = .error (.badRequest (.item e)) := by
    rw [h]
    rfl
  rw [addItem, Run.outcome_bind_of_error hitem]

/-- An item is added as the document that it makes. -/
theorem addItem_of_ofItem {fresh : DocumentId} {item : Json}
    (h : Document.ofItem fresh item = .ok d) :
    (s.addItem fresh container item).outcome =
      (s.addDocument container d).outcome.map fun s => (s, d) := by
  have hitem : (Run.ofExcept (ν := StoreNotice) ((Document.ofItem fresh item).mapError fun e =>
      StoreError.badRequest (.item e))).outcome = .ok d := by
    rw [h]
    rfl
  rw [addItem, Run.outcome_bind_of_ok hitem]
  cases hadd : (s.addDocument container d).outcome with
  | error e => rw [Run.outcome_bind_of_error hadd]; rfl
  | ok s' => rw [Run.outcome_bind_of_ok hadd]; rfl

/-- Items are added to containers that have a name. -/
theorem exists_name_of_addItem {fresh : DocumentId} {item : Json} {added : Store × Document}
    (h : (s.addItem fresh container item).outcome = .ok added) :
    ∃ name, container = .str name := by
  rcases s.locate_cases container with ⟨name, -, hname, -⟩ | ⟨e, he⟩
  · exact ⟨name, hname⟩
  · cases hitem : Document.ofItem fresh item with
    | error e' =>
        rw [addItem_of_error hitem] at h
        cases h
    | ok d =>
        rw [addItem_of_ofItem hitem, addDocument_of_error he] at h
        cases h

end Store

end DocStore
