import DocStore.Proofs.Database.Call

/-!
# A database kept in two dictionaries

The program keeps the containers in one dictionary and their documents
in another, by the names of the containers, and writes them one after
the other. `Dictionaries.call` is a call step by step: it reads and
writes the two dictionaries, a failure leaves what was written before
it, and a key that one dictionary has and the other lacks is a failure
of its own.

Three facts about calls follow from the order of the steps alone,
whatever the dictionaries hold: a call that reads leaves them as they
are (`reading_call_of_reads`), so does a call that fails, since all
steps that can fail come before the first that writes (`atomic_call`),
and a call on one container leaves the documents of the others alone
(`documents_call_of_ne`).
-/

namespace DocStore

/-- Containers by name, and their documents by name and id. -/
structure Dictionaries where
  containers : Table ContainerDescription
  documents : Table (Table Json)

/-- A computation on the dictionaries that may fail; a failure keeps
what was written. -/
abbrev Stateful (α : Type) := ExceptT CallFailure (StateM Dictionaries) α

namespace Stateful

variable {α β : Type}

/-! ## Running a computation -/

/-- The outcome of a computation, and the dictionaries after it. -/
def exec (x : Stateful α) (d : Dictionaries) : Except CallFailure α × Dictionaries :=
  x.run.run d

@[simp] theorem exec_get (d : Dictionaries) : (get : Stateful Dictionaries).exec d = (.ok d, d) :=
  rfl

@[simp] theorem exec_modify (f : Dictionaries → Dictionaries) (d : Dictionaries) :
    (modify f : Stateful Unit).exec d = (.ok (), f d) := rfl

@[simp] theorem exec_liftExcept (x : Except CallFailure α) (d : Dictionaries) :
    (liftExcept x : Stateful α).exec d = (x, d) := by
  cases x <;> rfl

theorem exec_bind_of_ok {x : Stateful α} {d d' : Dictionaries} {a : α}
    (h : x.exec d = (.ok a, d')) (f : α → Stateful β) : (x >>= f).exec d = (f a).exec d' := by
  have hbind : (x >>= f).exec d = (ExceptT.bindCont f (x.exec d).1).run (x.exec d).2 := rfl
  rw [hbind, h]
  rfl

theorem exec_bind_of_error {x : Stateful α} {d d' : Dictionaries} {e : CallFailure}
    (h : x.exec d = (.error e, d')) (f : α → Stateful β) : (x >>= f).exec d = (.error e, d') := by
  have hbind : (x >>= f).exec d = (ExceptT.bindCont f (x.exec d).1).run (x.exec d).2 := rfl
  rw [hbind, h]
  rfl

/-! ## Kinds of computations -/

/-- The computation writes nothing. -/
def Reading (x : Stateful α) : Prop :=
  ∀ d, (x.exec d).2 = d

/-- The computation never fails. -/
def Sure (x : Stateful α) : Prop :=
  ∀ d, ∃ a, (x.exec d).1 = .ok a

/-- The computation writes nothing if it fails. -/
def Atomic (x : Stateful α) : Prop :=
  ∀ d e, (x.exec d).1 = .error e → (x.exec d).2 = d

/-- The computation leaves the documents of all other containers
alone. -/
def Within (container : Json) (x : Stateful α) : Prop :=
  ∀ d other, container ≠ .str other → (x.exec d).2.documents.get? other = d.documents.get? other

theorem reading_pure (a : α) : Reading (pure a) := fun _ => rfl

theorem reading_throw (e : CallFailure) : Reading (throw e : Stateful α) := fun _ => rfl

theorem reading_get : Reading get := fun _ => rfl

theorem reading_liftExcept (x : Except CallFailure α) : Reading (liftExcept x) := by
  intro d
  rw [exec_liftExcept]

theorem Reading.bind {x : Stateful α} {f : α → Stateful β} (hx : Reading x)
    (hf : ∀ a, Reading (f a)) : Reading (x >>= f) := by
  intro d
  have hd := hx d
  rcases h : x.exec d with ⟨e | a, d'⟩
  · rw [exec_bind_of_error h]
    rwa [h] at hd
  · rw [exec_bind_of_ok h, hf]
    rwa [h] at hd

theorem sure_pure (a : α) : Sure (pure a) := fun _ => ⟨a, rfl⟩

theorem sure_modify_bind (f : Dictionaries → Dictionaries) {x : Stateful β} (hx : Sure x) :
    Sure (modify f >>= fun _ => x) := by
  intro d
  rw [exec_bind_of_ok (exec_modify f d)]
  exact hx _

theorem Reading.atomic {x : Stateful α} (h : Reading x) : Atomic x := fun d _ _ => h d

theorem Sure.atomic {x : Stateful α} (h : Sure x) : Atomic x := by
  intro d e he
  obtain ⟨a, ha⟩ := h d
  rw [ha] at he
  cases he

theorem Atomic.bind {x : Stateful α} {f : α → Stateful β} (hx : Reading x)
    (hf : ∀ a, Atomic (f a)) : Atomic (x >>= f) := by
  intro d e
  have hd := hx d
  rcases h : x.exec d with ⟨e' | a, d'⟩
  · rw [exec_bind_of_error h]
    rw [h] at hd
    exact fun _ => hd
  · rw [exec_bind_of_ok h]
    rw [h] at hd
    obtain rfl : d' = d := hd
    exact hf _ _ _

theorem Atomic.bind_pure {x : Stateful α} (h : Atomic x) (f : α → β) :
    Atomic (x >>= fun a => pure (f a)) := by
  intro d e
  have hd := h d
  rcases hx : x.exec d with ⟨e' | a, d'⟩
  · rw [exec_bind_of_error hx]
    rw [hx] at hd
    exact fun _ => hd e' rfl
  · rw [exec_bind_of_ok hx]
    intro he
    cases he

theorem Reading.within {x : Stateful α} (h : Reading x) (container : Json) :
    Within container x := by
  intro d other _
  rw [h]

theorem Within.bind {container : Json} {x : Stateful α} {f : α → Stateful β}
    (hx : Within container x)
    (hf : ∀ a, (∃ d, (x.exec d).1 = .ok a) → Within container (f a)) :
    Within container (x >>= f) := by
  intro d other hne
  have hd := hx d other hne
  rcases h : x.exec d with ⟨e | a, d'⟩
  · rw [exec_bind_of_error h]
    rwa [h] at hd
  · rw [exec_bind_of_ok h, hf a ⟨d, by rw [h]⟩ _ _ hne]
    rwa [h] at hd

theorem within_modify {container : Json} {f : Dictionaries → Dictionaries}
    (h : ∀ d other, container ≠ .str other →
      (f d).documents.get? other = d.documents.get? other) :
    Within container (modify f) :=
  fun d other hne => h d other hne

end Stateful

namespace Dictionaries

open Stateful

/-! ## The calls, step by step -/

/-- The container of a name, if it is there. A list or an object cannot
be looked up. -/
def findContainer (container : Json) : Stateful (Option ContainerDescription) :=
  match container with
  | .str name => do return (← get).containers.get? name
  | .arr _ | .obj _ => throw (.refused (.store .notAName))
  | _ => return none

def getContainer (container : Json) : Stateful ContainerDescription := do
  match ← findContainer container with
  | some c => return c
  | none => throw (.refused (.store (.containerNotFound container)))

/-- The documents at a key, which has to be there. -/
def documentsAt (container : Json) : Stateful (String × Table Json) :=
  match container with
  | .str name => do
    match (← get).documents.get? name with
    | some documents => return (name, documents)
    | none => throw .keyMissing
  | _ => throw .keyMissing

/-- The documents of a container, which is looked up first. -/
def getDocuments (container : Json) : Stateful (String × Table Json) := do
  let _ ← getContainer container
  documentsAt container

/-- What a new container is described by. -/
def describe (supply : Supply) (container : Json) : Json :=
  .obj [("id", container), ("_rid", .str supply.resourceId), ("_ts", .int supply.timestamp),
    ("_self", .str ("colls/" ++ supply.resourceId))]

/-- The fault of the first issue. -/
def firstFault : List Validation.Issue → Validation.Fault
  | i :: _ => i.fault
  | [] => .missing

/-- Makes a container, unless it is there: its description is checked
and written, then an empty dictionary for its documents. -/
def addContainer (supply : Supply) (container : Json) : Stateful ContainerDescription := do
  match ← findContainer container with
  | some c => return c
  | none =>
    match ContainerDescription.read (.ofJson (describe supply container)) with
    | .faulty issues =>
      throw (.refused (.store (.badRequest (.containerName container (firstFault issues)))))
    | .valid c =>
      modify fun d => { d with containers := d.containers.put c.name c }
      modify fun d => { d with documents := d.documents.put c.name [] }
      return c

/-- Adds the document that an item makes: the item is checked, the
container is looked up, and the id must be new. -/
def addItem (supply : Supply) (container item : Json) : Stateful Json := do
  let document ← liftExcept <| (Document.ofItem supply.id item).mapError fun e =>
    CallFailure.refused (.store (.badRequest (.item e)))
  let (name, documents) ← getDocuments container
  if documents.has document.id.text then
    throw (.refused (.store (.documentExists document.id name)))
  else
    modify fun d =>
      { d with documents := d.documents.put name (documents.put document.id.text document.toJson) }
    return document.toJson

def query (settings : Settings) (container text parameters : Json) : Stateful (List Json) := do
  let (_, documents) ← getDocuments container
  let text ← liftExcept (queryText text)
  liftExcept <| (runQuery .standard settings.query.strict text parameters
    documents.values).outcome.mapError fun e => CallFailure.refused (.page e)

def queryPage (settings : Settings) (container text size token parameters : Json) :
    Stateful (ContainerDescription × Page) := do
  let size ← liftExcept (checkedSize settings size)
  let c ← getContainer container
  let (_, documents) ← documentsAt container
  let text ← liftExcept (pageText text)
  let token ← liftExcept (tokenText token)
  let page ← liftExcept <| (servePage .standard settings.query.strict text documents.values
    (.int size) token parameters).outcome.mapError fun e => CallFailure.refused (.page e)
  return (c, page)

def clear : Stateful Unit := do
  modify fun d => { d with containers := [] }
  modify fun d => { d with documents := [] }

/-- One call. -/
def call (settings : Settings) (supply : Supply) :
    Call → Stateful (Response ContainerDescription)
  | .addContainer name => do return .container (← addContainer supply name)
  | .addItem container item => do return .document (← addItem supply container item)
  | .query container text parameters => do
    return .results (← query settings container text parameters)
  | .queryPage container text size token parameters => do
    let (c, page) ← queryPage settings container text size token parameters
    return .page c page
  | .listContainers => do return .containers (← get).containers.values
  | .clear => do
    clear
    return .done

/-! ## What holds whatever the dictionaries hold -/

theorem reading_findContainer (container : Json) : Reading (findContainer container) := by
  unfold findContainer
  split
  · exact reading_get.bind fun _ => reading_pure _
  · exact reading_throw _
  · exact reading_throw _
  · exact reading_pure _

theorem reading_getContainer (container : Json) : Reading (getContainer container) := by
  refine (reading_findContainer container).bind fun c => ?_
  cases c with
  | none => exact reading_throw _
  | some c => exact reading_pure _

theorem reading_documentsAt (container : Json) : Reading (documentsAt container) := by
  unfold documentsAt
  split
  · refine reading_get.bind fun d => ?_
    split
    · exact reading_pure _
    · exact reading_throw _
  · exact reading_throw _

theorem reading_getDocuments (container : Json) : Reading (getDocuments container) :=
  (reading_getContainer container).bind fun _ => reading_documentsAt container

theorem reading_query (settings : Settings) (container text parameters : Json) :
    Reading (query settings container text parameters) := by
  refine (reading_getDocuments container).bind fun _ => ?_
  refine (reading_liftExcept _).bind fun _ => ?_
  exact reading_liftExcept _

theorem reading_queryPage (settings : Settings) (container text size token parameters : Json) :
    Reading (queryPage settings container text size token parameters) := by
  refine (reading_liftExcept _).bind fun _ => ?_
  refine (reading_getContainer container).bind fun _ => ?_
  refine (reading_documentsAt container).bind fun _ => ?_
  refine (reading_liftExcept _).bind fun _ => ?_
  refine (reading_liftExcept _).bind fun _ => ?_
  exact (reading_liftExcept _).bind fun _ => reading_pure _

theorem reading_call_of_reads (settings : Settings) (supply : Supply) {c : Call} (h : c.Reads) :
    Reading (call settings supply c) := by
  match c, h with
  | .query container text parameters, _ =>
      exact (reading_query settings container text parameters).bind fun _ => reading_pure _
  | .queryPage container text size token parameters, _ =>
      exact (reading_queryPage settings container text size token parameters).bind fun _ =>
        reading_pure _
  | .listContainers, _ => exact reading_get.bind fun _ => reading_pure _

theorem atomic_addContainer (supply : Supply) (container : Json) :
    Atomic (addContainer supply container) := by
  refine Atomic.bind (reading_findContainer container) fun c => ?_
  cases c with
  | some c => exact (reading_pure _).atomic
  | none =>
      dsimp only
      split
      · exact (reading_throw _).atomic
      · exact (sure_modify_bind _ (sure_modify_bind _ (sure_pure _))).atomic

theorem atomic_addItem (supply : Supply) (container item : Json) :
    Atomic (addItem supply container item) := by
  refine Atomic.bind (reading_liftExcept _) fun document => ?_
  refine Atomic.bind (reading_getDocuments container) fun found => ?_
  dsimp only
  split
  · exact (reading_throw _).atomic
  · exact (sure_modify_bind _ (sure_pure _)).atomic

/-- A call that fails leaves the dictionaries as they are: nothing is
written before the last step that can fail. -/
theorem atomic_call (settings : Settings) (supply : Supply) (c : Call) :
    Atomic (call settings supply c) := by
  by_cases hreads : c.Reads
  · exact (reading_call_of_reads settings supply hreads).atomic
  · cases c with
    | addContainer name => exact Atomic.bind_pure (atomic_addContainer supply name) _
    | addItem container item => exact Atomic.bind_pure (atomic_addItem supply container item) _
    | clear => exact Sure.atomic fun _ => ⟨_, rfl⟩
    | query container text parameters => exact absurd trivial hreads
    | queryPage container text size token parameters => exact absurd trivial hreads
    | listContainers => exact absurd trivial hreads

/-! ### Descriptions of containers -/

/-- The reader of descriptions at work on the four fields of a new
container: the last three are as they should be, the name decides. -/
theorem read_describe (supply : Supply) (container : Json) :
    ContainerDescription.read (.ofJson (describe supply container)) =
      ((Validation.textThat ContainerName.refusal? (.ofJson container)).under "id").map fun name =>
        ⟨name, supply.resourceId, supply.timestamp, "colls/" ++ supply.resourceId⟩ := by
  have hread : ContainerDescription.read (.ofJson (describe supply container)) =
      ContainerDescription.mk <$>
        (Validation.textThat ContainerName.refusal? (.ofJson container)).under "id" <*>
        .valid supply.resourceId <*> .valid supply.timestamp <*>
        .valid ("colls/" ++ supply.resourceId) := rfl
  rw [hread]
  cases (Validation.textThat ContainerName.refusal? (.ofJson container)).under "id" <;> rfl

theorem read_describe_of_allowed (supply : Supply) {name : String}
    (h : ContainerName.refusal? name = none) :
    ContainerDescription.read (.ofJson (describe supply (.str name))) =
      .valid ⟨name, supply.resourceId, supply.timestamp, "colls/" ++ supply.resourceId⟩ := by
  have hname : Validation.textThat ContainerName.refusal? (.text name) = .valid name := by
    simp only [Validation.textThat, Validation.single, Validation.textValue, bind, Except.bind, h,
      Validation.Checked.ofFault]
  rw [read_describe, Validation.Given.ofJson, hname]
  rfl

theorem read_describe_of_refusal (supply : Supply) {name reason : String}
    (h : ContainerName.refusal? name = some reason) :
    ContainerDescription.read (.ofJson (describe supply (.str name))) =
      .faulty [⟨["id"], .refused reason, .text name⟩] := by
  have hname : Validation.textThat ContainerName.refusal? (.text name) =
      .faulty [⟨[], .refused reason, .text name⟩] := by
    simp only [Validation.textThat, Validation.single, Validation.textValue, bind, Except.bind, h,
      Validation.Checked.ofFault]
  rw [read_describe, Validation.Given.ofJson, hname]
  rfl

theorem read_describe_of_no_text (supply : Supply) {container : Json}
    (h : ∀ name, container ≠ .str name) :
    ContainerDescription.read (.ofJson (describe supply container)) =
      .faulty [⟨["id"], .textWanted, .ofJson container⟩] := by
  rw [read_describe]
  cases container with
  | str name => exact absurd rfl (h name)
  | _ => rfl

/-- What is described is described by its name. -/
theorem name_of_read_describe {supply : Supply} {container : Json} {c : ContainerDescription}
    (h : ContainerDescription.read (.ofJson (describe supply container)) = .valid c) :
    container = .str c.name := by
  by_cases htext : ∃ name, container = .str name
  · obtain ⟨name, rfl⟩ := htext
    cases hrefusal : ContainerName.refusal? name with
    | none =>
        rw [read_describe_of_allowed supply hrefusal] at h
        cases h
        rfl
    | some reason =>
        rw [read_describe_of_refusal supply hrefusal] at h
        cases h
  · rw [read_describe_of_no_text supply fun name hname => htext ⟨name, hname⟩] at h
    cases h

/-! ### Other containers -/

theorem within_addContainer (supply : Supply) (container : Json) :
    Within container (addContainer supply container) := by
  refine Within.bind ((reading_findContainer _).within _) fun c _ => ?_
  cases c with
  | some c => exact (reading_pure _).within _
  | none =>
      dsimp only
      split
      · exact (reading_throw _).within _
      · rename_i c hread
        obtain rfl := name_of_read_describe hread
        refine Within.bind (within_modify fun _ _ _ => rfl) fun _ _ => ?_
        refine Within.bind (within_modify fun d other hne => ?_) fun _ _ => (reading_pure _).within _
        exact Table.get?_put_of_ne d.documents [] fun h => hne (h ▸ rfl)

/-- The documents that are found come with the key that they are at. -/
theorem key_of_getDocuments {container : Json} {d : Dictionaries} {found : String × Table Json}
    (h : ((getDocuments container).exec d).1 = .ok found) : container = .str found.1 := by
  have hat : ∀ d', ((documentsAt container).exec d').1 = .ok found → container = .str found.1 := by
    intro d' hfound
    cases container with
    | str name =>
        rw [documentsAt, exec_bind_of_ok (exec_get d')] at hfound
        cases hget : d'.documents.get? name with
        | none =>
            rw [hget] at hfound
            cases hfound
        | some documents =>
            rw [hget] at hfound
            cases hfound
            rfl
    | _ => cases hfound
  rcases hc : (getContainer container).exec d with ⟨e | c, d'⟩
  · rw [getDocuments, exec_bind_of_error hc] at h
    cases h
  · rw [getDocuments, exec_bind_of_ok hc] at h
    exact hat d' h

theorem within_addItem (supply : Supply) (container item : Json) :
    Within container (addItem supply container item) := by
  refine Within.bind ((reading_liftExcept _).within _) fun document _ => ?_
  refine Within.bind ((reading_getDocuments _).within _) fun found hfound => ?_
  obtain ⟨d, hd⟩ := hfound
  obtain rfl := key_of_getDocuments hd
  dsimp only
  split
  · exact (reading_throw _).within _
  · refine Within.bind (within_modify fun d other hne => ?_) fun _ _ => (reading_pure _).within _
    exact Table.get?_put_of_ne d.documents _ fun h => hne (h ▸ rfl)

/-- Whatever is called but clearing, the documents of the containers
that the call is not about stay as they are. -/
theorem documents_call_of_ne (settings : Settings) (supply : Supply) {c : Call} {other : String}
    (hclear : c ≠ .clear) (hother : c.container? ≠ some (.str other)) (d : Dictionaries) :
    ((call settings supply c).exec d).2.documents.get? other = d.documents.get? other := by
  by_cases hreads : c.Reads
  · rw [reading_call_of_reads settings supply hreads]
  · cases c with
    | addContainer container =>
        have hne : container ≠ .str other := fun h => hother (congrArg some h)
        have hwithin := within_addContainer supply container
        exact hwithin.bind (fun _ _ => (reading_pure _).within _) d other hne
    | addItem container item =>
        have hne : container ≠ .str other := fun h => hother (congrArg some h)
        have hwithin := within_addItem supply container item
        exact hwithin.bind (fun _ _ => (reading_pure _).within _) d other hne
    | clear => exact absurd rfl hclear
    | query container text parameters => exact absurd trivial hreads
    | queryPage container text size token parameters => exact absurd trivial hreads
    | listContainers => exact absurd trivial hreads

end Dictionaries
end DocStore
