import DocStore.Database.Basic
import DocStore.Proofs.Run
import DocStore.Store.Description

/-!
# Calls

Everything a client can ask of a database, with any values as
arguments, and what the database answers. A call takes a step of the
database (`Database.call`), a list of calls a run (`Database.runCalls`).
A call that is refused, or only reads, leaves the database as it is by
the form of the definition; that the program, which keeps two
dictionaries and writes them one after the other, does the same is the
subject of the modules after this one.
-/

namespace DocStore

/-- What a call takes from outside: an id for an item that brings none,
and what describes a new container. -/
structure Supply where
  id : DocumentId
  resourceId : String
  timestamp : Int

/-- A call with its arguments. -/
inductive Call where
  | addContainer (name : Json)
  | addItem (container item : Json)
  | query (container text parameters : Json)
  | queryPage (container text size token parameters : Json)
  | listContainers
  | clear

namespace Call

/-- The call asks and does not write. -/
def Reads : Call → Prop
  | query .. | queryPage .. | listContainers => True
  | _ => False

/-- The container that the call is about; a list of containers and
clearing are about none of them. -/
def container? : Call → Option Json
  | addContainer name => some name
  | addItem container _ => some container
  | query container _ _ => some container
  | queryPage container _ _ _ _ => some container
  | listContainers | clear => none

end Call

/-- What a call answers; containers are shown as a `κ`. -/
inductive Response (κ : Type) where
  | container (c : κ)
  | document (v : Json)
  | results (documents : List Json)
  | page (c : κ) (p : Page)
  | containers (cs : List κ)
  | done

/-- The answer with containers shown in another way. -/
def Response.map {κ κ' : Type} (f : κ → κ') : Response κ → Response κ'
  | container c => container (f c)
  | document v => document v
  | results documents => results documents
  | page c p => page (f c) p
  | containers cs => containers (cs.map f)
  | done => done

/-- Why a call has no answer: it is refused, an argument that has to be
a text is none, or a key that should be there is not. -/
inductive CallFailure where
  | refused (e : DatabaseError)
  | noText
  | keyMissing

/-! ## Arguments -/

/-- The text of a query; null is as good as an empty text, and is
refused like one. -/
def queryText : Json → Except CallFailure String
  | .str s => .ok s
  | .null => .ok ""
  | _ => .error .noText

/-- The text of a page request, of which the fingerprint is taken. -/
def pageText : Json → Except CallFailure String
  | .str s => .ok s
  | _ => .error .noText

/-- The token of a page request; what is blank counts as no token. -/
def tokenText : Json → Except CallFailure (Option String)
  | .str s => .ok (some s)
  | v => if v.isBlank then .ok none else .error .noText

/-- The size of the pages, if what is asked for is one. -/
def checkedSize (settings : Settings) (size : Json) : Except CallFailure Nat :=
  match settings.query.pageSize? size with
  | some n => .ok n
  | none => .error (.refused (.store (.badRequest (.itemCount size))))

/-! ## Steps and runs of a database -/

namespace Database

/-- The results of a query, whatever its arguments are. The container is
looked up first. -/
def answerQuery (db : Database) (container text parameters : Json) :
    Except CallFailure (List Json) :=
  match queryText text with
  | .ok text => (db.query container text parameters).outcome.mapError .refused
  | .error e => do
    let _ ← (db.documents container).mapError .refused
    .error e

/-- A page of results, whatever the arguments are. The size is looked at
first, then the container is looked up. -/
def answerPage (db : Database) (container text size token parameters : Json) :
    Except CallFailure Page :=
  match pageText text, tokenText token with
  | .ok text, .ok token =>
    (db.queryPage container text size token parameters).outcome.mapError .refused
  | .ok _, .error e | .error e, _ =>
    match db.settings.query.pageSize? size with
    | none => .error (.refused (.store (.badRequest (.itemCount size))))
    | some _ => do
      let _ ← (db.documents container).mapError .refused
      .error e

/-- One call: its answer, and the database after it. -/
def call (db : Database) (supply : Supply) :
    Call → Except CallFailure (Response Json) × Database
  | .addContainer name =>
    match (db.store.addContainer name).outcome with
    | .ok store => (.ok (.container name), { db with store })
    | .error e => (.error (.refused (.store e)), db)
  | .addItem container item =>
    match (db.store.addItem supply.id container item).outcome with
    | .ok (store, d) => (.ok (.document d.toJson), { db with store })
    | .error e => (.error (.refused (.store e)), db)
  | .query container text parameters =>
    ((db.answerQuery container text parameters).map .results, db)
  | .queryPage container text size token parameters =>
    ((db.answerPage container text size token parameters).map (.page container), db)
  | .listContainers => (.ok (.containers (db.store.names.map .str)), db)
  | .clear => (.ok .done, { db with store := .empty })

/-- Calls one after the other: the answers, and the database after
them. -/
def runCalls (db : Database) :
    List (Supply × Call) → List (Except CallFailure (Response Json)) × Database
  | [] => ([], db)
  | (supply, c) :: rest =>
    let (answer, db) := db.call supply c
    let (answers, db) := runCalls db rest
    (answer :: answers, db)

theorem runCalls_cons (db : Database) (supply : Supply) (c : Call)
    (rest : List (Supply × Call)) :
    db.runCalls ((supply, c) :: rest) =
      ((db.call supply c).1 :: ((db.call supply c).2.runCalls rest).1,
        ((db.call supply c).2.runCalls rest).2) := rfl

/-- Settings stay. -/
theorem settings_call (db : Database) (supply : Supply) (c : Call) :
    (db.call supply c).2.settings = db.settings := by
  cases c with
  | addContainer name =>
      simp only [call]
      split <;> rfl
  | addItem container item =>
      simp only [call]
      split <;> rfl
  | _ => rfl

/-! ## In the order of the checks -/

section Order

variable {db : Database} {container text size token parameters : Json}

/-- A query is refused for its container, then for its text. -/
theorem answerQuery_eq :
    db.answerQuery container text parameters = (do
      let documents ← (db.documents container).mapError CallFailure.refused
      let text ← queryText text
      (runQuery .standard db.settings.query.strict text parameters documents).outcome.mapError
        fun e => CallFailure.refused (.page e)) := by
  unfold answerQuery
  cases htext : queryText text with
  | error e => rfl
  | ok text =>
      cases hdocuments : db.documents container with
      | error e =>
          simp only [query, hdocuments]
          rfl
      | ok documents =>
          simp only [query, hdocuments]
          rw [Run.outcome_bind_of_ok (Run.outcome_ofExcept _), Run.outcome_mapError,
            Run.mapError_mapError]
          rfl

/-- A page request is refused for its size, then for its container, its
text and its token. -/
theorem answerPage_eq :
    db.answerPage container text size token parameters = (do
      let n ← checkedSize db.settings size
      let documents ← (db.documents container).mapError CallFailure.refused
      let text ← pageText text
      let token ← tokenText token
      (servePage .standard db.settings.query.strict text documents (.int n) token
        parameters).outcome.mapError fun e => CallFailure.refused (.page e)) := by
  unfold answerPage checkedSize
  cases hsize : db.settings.query.pageSize? size with
  | none =>
      cases htext : pageText text with
      | error e => rfl
      | ok text =>
          cases htoken : tokenText token with
          | error e => rfl
          | ok token =>
              simp only [queryPage, hsize]
              rfl
  | some n =>
      cases htext : pageText text with
      | error e => rfl
      | ok text =>
          cases htoken : tokenText token with
          | error e => rfl
          | ok token =>
              simp only [queryPage, hsize]
              cases hdocuments : db.documents container with
              | error e => rfl
              | ok documents =>
                  rw [Run.outcome_bind_of_ok (Run.outcome_ofExcept _), Run.outcome_mapError,
                    Run.mapError_mapError]
                  rfl

end Order

end Database

end DocStore
