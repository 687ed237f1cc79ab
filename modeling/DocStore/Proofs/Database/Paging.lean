import DocStore.Proofs.Database.Growth
import DocStore.Proofs.Query.Execution
import DocStore.Proofs.Query.Paging

/-!
# Paging while others write

A client pages through a query, each time with the token of the page
before (`PagedThrough`). Between its requests anything may be called but
clearing. Each page is cut out of the result in the database as it then
is, and still no document is skipped or served twice: after every page
the documents served so far are the front of the present result, and all
of it once a page carries no token (`pagedThrough_exact`).

Containers grow at their end (`Database.Grows`), and so does the result
of a query without sort keys (`prefix_answerQuery`). So what was served
from an earlier result is the same part of a later one, and the offset
in a token, which counts what was served, goes on where it ended
(`ServedUpTo`).
-/

namespace DocStore

namespace Database

variable {db db' : Database} {container size token parameters : Json}
  {results others : List Json} {n : Nat} {page : Page}

/-- A query is answered if its container is found, its text parsed and
the query executed. -/
theorem answerQuery_eq_ok_iff {s : String} :
    db.answerQuery container (.str s) parameters = .ok results ↔
      ∃ documents q, db.documents container = .ok documents ∧
        Query.parse .standard s parameters = .ok q ∧
        (q.execute .standard db.settings.query.strict documents).outcome = .ok results := by
  simp only [answerQuery_eq, queryText, ok_bind, bind_eq_ok_iff, mapError_eq_ok_iff,
    runQuery_eq_ok_iff]
  constructor
  · rintro ⟨documents, hdocuments, q, h⟩
    exact ⟨documents, q, hdocuments, h⟩
  · rintro ⟨documents, q, hdocuments, h⟩
    exact ⟨documents, hdocuments, q, h⟩

/-- Without sort keys, a result grows at its end. -/
theorem prefix_answerQuery {s : String} (h : db.Grows db')
    (hkeys : ∀ q, Query.parse .standard s parameters = .ok q → q.orderBy = [])
    (hresults : db.answerQuery container (.str s) parameters = .ok results)
    (hothers : db'.answerQuery container (.str s) parameters = .ok others) :
    results <+: others := by
  obtain ⟨documents, q, hdocuments, hq, hexecute⟩ := answerQuery_eq_ok_iff.mp hresults
  obtain ⟨all, q', hall, hq', hexecute'⟩ := answerQuery_eq_ok_iff.mp hothers
  obtain ⟨more, hmore⟩ := h.exists_append hdocuments
  obtain rfl := Except.ok.inj (hq.symm.trans hq')
  obtain rfl := Except.ok.inj (hmore.symm.trans hall)
  rw [h.settings] at hexecute'
  exact prefix_execute (hkeys q hq) hexecute hexecute'

/-! ## Pages -/

theorem pageSize?_pos {settings : QuerySettings} (h : settings.pageSize? size = some n) :
    0 < n := by
  have hmax : 0 < settings.maxPageSize :=
    Nat.lt_of_lt_of_le settings.default_pos settings.default_le_max
  have hdefault := settings.default_pos
  unfold QuerySettings.pageSize? at h
  split at h
  · obtain rfl := Option.some.inj h
    omega
  · obtain ⟨m, hm, rfl⟩ := Option.map_eq_some_iff.mp h
    have : 0 < m := by
      unfold positiveSize? at hm
      split at hm
      · obtain rfl := Option.some.inj hm
        omega
      · cases hm
    omega

section Pages

variable {s : String} {token? : Option String} {offset : Nat}
  (hsize : db.settings.query.pageSize? size = some n) (htoken : tokenText token = .ok token?)

include hsize htoken

/-- A request of a page, its arguments being fit. -/
theorem answerPage_eq_servePage :
    db.answerPage container (.str s) size token parameters = (do
      let documents ← (db.documents container).mapError CallFailure.refused
      (servePage .standard db.settings.query.strict s documents (.int n) token?
        parameters).outcome.mapError fun e => CallFailure.refused (.page e)) := by
  simp only [answerPage_eq, checkedSize, hsize, htoken, pageText, ok_bind]

/-- A page is cut out of the result of its query, from where the token
says. -/
theorem answerPage_eq_ok_iff :
    db.answerPage container (.str s) size token parameters = .ok page ↔
      ∃ offset results, startOffset s n token? = .ok offset ∧
        db.answerQuery container (.str s) parameters = .ok results ∧
        pageOf s n offset results = page := by
  simp only [answerPage_eq_servePage hsize htoken, answerQuery_eq, queryText, ok_bind,
    outcome_servePage (pageSize?_pos hsize), bind_eq_ok_iff, mapError_eq_ok_iff]
  constructor
  · rintro ⟨documents, hdocuments, offset, hoffset, results, hresults, ⟨⟩⟩
    exact ⟨offset, results, hoffset, ⟨documents, hdocuments, hresults⟩, rfl⟩
  · rintro ⟨offset, results, hoffset, ⟨documents, hdocuments, hresults⟩, rfl⟩
    exact ⟨documents, hdocuments, offset, hoffset, results, hresults, rfl⟩

/-- A token that says where to start is not what a request is refused
for. -/
theorem answerPage_ne_tokenError (hstart : startOffset s n token? = .ok offset)
    (e : TokenError) :
    db.answerPage container (.str s) size token parameters ≠
      .error (.refused (.page (.token e))) := by
  rw [answerPage_eq_servePage hsize htoken]
  unfold Database.documents
  cases db.store.locate container with
  | error e' => exact fun h => by cases h
  | ok c =>
      show ((servePage .standard db.settings.query.strict s c.contents (.int n) token?
        parameters).outcome.mapError fun e => CallFailure.refused (.page e)) ≠ _
      rw [outcome_servePage (pageSize?_pos hsize), hstart]
      show ((runQuery .standard db.settings.query.strict s parameters c.contents).outcome >>=
        fun results => _).mapError _ ≠ _
      rw [runQuery, Run.outcome_bind, Run.outcome_mapError]
      cases (parseNoticed .standard s parameters).outcome with
      | error e' => exact fun h => by cases h
      | ok q =>
          show (((q.execute .standard _ c.contents).mapError PageError.execution).outcome >>=
            fun results => _).mapError _ ≠ _
          rw [Run.outcome_mapError]
          cases (q.execute .standard db.settings.query.strict c.contents).outcome with
          | error e' => exact fun h => by cases h
          | ok results => exact fun h => by cases h

end Pages

end Database

/-! ## The client -/

/-- A client that asks for pages of a query: the database at its last
request, the documents served so far, and the token of the last page.
Whatever is called between two requests, it is not clearing; the sizes
asked for come to the same number. -/
inductive PagedThrough (container : Json) (text : String) (parameters : Json) (n : Nat) :
    Database → List Json → Option String → Prop where
  | first {db : Database} {size : Json} {page : Page}
      (hsize : db.settings.query.pageSize? size = some n)
      (hpage : db.answerPage container (.str text) size .null parameters = .ok page) :
      PagedThrough container text parameters n db page.documents page.next?
  | next {db : Database} {served : List Json} {token : String} {size : Json} {page : Page}
      (h : PagedThrough container text parameters n db served (some token))
      (calls : List (Supply × Call)) (hcalls : ∀ c ∈ calls, c.2 ≠ .clear)
      (hsize : (db.runCalls calls).2.settings.query.pageSize? size = some n)
      (hpage : (db.runCalls calls).2.answerPage container (.str text) size (.str token)
        parameters = .ok page) :
      PagedThrough container text parameters n (db.runCalls calls).2
        (served ++ page.documents) page.next?

/-- The documents served are the first of the result, as many as the
offset in the token says; without a token they are all. -/
def ServedUpTo (db : Database) (container : Json) (text : String) (parameters : Json) (n : Nat)
    (served : List Json) (next? : Option String) : Prop :=
  ∃ offset results, db.answerQuery container (.str text) parameters = .ok results ∧
    served = results.take offset ∧
    match next? with
    | none => results.length ≤ offset
    | some token => offset < results.length ∧ startOffset text n (some token) = .ok offset

section Client

variable {db db' : Database} {container size parameters : Json} {text : String} {n : Nat}
  {served results : List Json} {next? : Option String} {page : Page}

/-- One more page behind what was served. -/
theorem servedUpTo_pageOf (hresults : db.answerQuery container (.str text) parameters = .ok results)
    (hlength : results.length ≤ 10 ^ Text.maxIntDigits) (offset : Nat) :
    ServedUpTo db container text parameters n
      (results.take offset ++ (pageOf text n offset results).documents)
      (pageOf text n offset results).next? := by
  refine ⟨offset + n, results, hresults, List.take_add.symm, ?_⟩
  cases hnext : (pageOf text n offset results).next? with
  | none =>
      have hlast : ¬ offset + n < results.length := fun hmore => by
        simp [pageOf, hmore] at hnext
      exact Nat.le_of_not_lt hlast
  | some token =>
      refine ⟨?_, startOffset_of_next hlength hnext⟩
      by_contra hlast
      simp [pageOf, hlast] at hnext

/-- The next page goes on where the documents served end, though the
result has grown. -/
theorem ServedUpTo.next {token : String}
    (h : ServedUpTo db container text parameters n served (some token)) (hgrows : db.Grows db')
    (hkeys : ∀ q, Query.parse .standard text parameters = .ok q → q.orderBy = [])
    (hlength : ∀ results, db'.answerQuery container (.str text) parameters = .ok results →
      results.length ≤ 10 ^ Text.maxIntDigits)
    (hsize : db'.settings.query.pageSize? size = some n)
    (hpage : db'.answerPage container (.str text) size (.str token) parameters = .ok page) :
    ServedUpTo db' container text parameters n (served ++ page.documents) page.next? := by
  obtain ⟨offset, results, hresults, rfl, hoffset, hstart⟩ := h
  obtain ⟨offset', others, hstart', hothers, rfl⟩ :=
    (Database.answerPage_eq_ok_iff hsize rfl).mp hpage
  obtain rfl := Except.ok.inj (hstart.symm.trans hstart')
  obtain ⟨more, rfl⟩ := Database.prefix_answerQuery hgrows hkeys hresults hothers
  have htake : (results ++ more).take offset = results.take offset :=
    List.take_append_of_le_length (Nat.le_of_lt hoffset)
  rw [← htake]
  exact servedUpTo_pageOf hothers (hlength _ hothers) offset

/-- By induction on the requests. The bound on the last result bounds
the earlier ones. -/
theorem PagedThrough.servedUpTo
    (h : PagedThrough container text parameters n db served next?)
    (hkeys : ∀ q, Query.parse .standard text parameters = .ok q → q.orderBy = [])
    (hlength : ∀ results, db.answerQuery container (.str text) parameters = .ok results →
      results.length ≤ 10 ^ Text.maxIntDigits) :
    ServedUpTo db container text parameters n served next? := by
  induction h with
  | first hsize hpage =>
      obtain ⟨offset, results, ⟨⟩, hresults, rfl⟩ :=
        (Database.answerPage_eq_ok_iff hsize rfl).mp hpage
      exact servedUpTo_pageOf hresults (hlength _ hresults) 0
  | @next db served token size page h calls hcalls hsize hpage ih =>
      have hgrows := Database.Grows.runCalls db hcalls
      refine (ih fun results hresults => ?_).next hgrows hkeys hlength hsize hpage
      obtain ⟨-, others, -, hothers, -⟩ := (Database.answerPage_eq_ok_iff hsize rfl).mp hpage
      have hfront := Database.prefix_answerQuery hgrows hkeys hresults hothers
      exact Nat.le_trans hfront.length_le (hlength others hothers)

end Client

/-- **Paging stays exact while others write.** Let a client page through
a query without sort keys, while anything but clearing is called between
its requests. Once it has been served a page, the query has a result in
the database as it is; the documents served so far are the front of this
result, and all of it if the page carries no token. If it carries one,
no later request is refused for this token. The bound on the result is
no restriction, as for pages of a result that does not change. -/
theorem pagedThrough_exact {db : Database} {container : Json} {text : String}
    {parameters : Json} {n : Nat} {served : List Json} {next? : Option String}
    (h : PagedThrough container text parameters n db served next?)
    (hkeys : ∀ q, Query.parse .standard text parameters = .ok q → q.orderBy = [])
    (hlength : ∀ results, db.answerQuery container (.str text) parameters = .ok results →
      results.length ≤ 10 ^ Text.maxIntDigits) :
    ∃ results, db.answerQuery container (.str text) parameters = .ok results ∧
      served <+: results ∧ (next? = none → served = results) ∧
      ∀ token, next? = some token → ∀ (calls : List (Supply × Call)) size,
        (db.runCalls calls).2.settings.query.pageSize? size = some n → ∀ e,
          (db.runCalls calls).2.answerPage container (.str text) size (.str token) parameters ≠
            .error (.refused (.page (.token e))) := by
  obtain ⟨offset, results, hresults, rfl, hnext⟩ := h.servedUpTo hkeys hlength
  refine ⟨results, hresults, List.take_prefix .., ?_, ?_⟩
  · rintro rfl
    exact List.take_of_length_le hnext
  · rintro token rfl calls size hsize e
    exact Database.answerPage_ne_tokenError hsize rfl hnext.2 e

/-- An item is added between the first page and the second. -/
theorem pagedThrough_exact_item_between :
    let supply : Supply := ⟨⟨"fresh", by decide⟩, "rid", 0⟩
    let document : String → Json := fun id => .obj [("id", .str id)]
    let item : String → Supply × Call := fun id =>
      (supply, .addItem (.str "c") (document id))
    let db := ((Database.ofSettings .standard).runCalls
      [(supply, .addContainer (.str "c")), item "a", item "b"]).2
    let later := (db.runCalls [item "d"]).2
    ∃ next?, PagedThrough (.str "c") "SELECT * FROM c" .null 1 later [document "a", document "b"]
        next? ∧
      ∃ results, later.answerQuery (.str "c") (.str "SELECT * FROM c") .null = .ok results ∧
        [document "a", document "b"] <+: results := by
  intro supply document item db later
  have hresults : db.answerQuery (.str "c") (.str "SELECT * FROM c") .null =
      .ok [document "a", document "b"] := rfl
  have hlater : later.answerQuery (.str "c") (.str "SELECT * FROM c") .null =
      .ok [document "a", document "b", document "d"] := rfl
  have hbound : 3 ≤ 10 ^ Text.maxIntDigits :=
    Nat.le_trans (by decide : 3 ≤ 10) (Nat.le_self_pow (by decide) 10)
  have hsize : db.settings.query.pageSize? (.int 1) = some 1 := rfl
  have hsize' : later.settings.query.pageSize? (.int 1) = some 1 := rfl
  -- the first page, and the token that it carries
  obtain ⟨token, htoken⟩ : ∃ token, (pageOf "SELECT * FROM c" 1 0
      [document "a", document "b"]).next? = some token := ⟨_, rfl⟩
  have hfirst := PagedThrough.first hsize
    ((Database.answerPage_eq_ok_iff hsize rfl).mpr ⟨0, _, rfl, hresults, rfl⟩)
  rw [htoken] at hfirst
  -- the second page, from the result that has grown
  have hstart := startOffset_of_next (Nat.le_trans (by decide) hbound) htoken
  have hnext := hfirst.next [item "d"] (by simp [item]) hsize'
    ((Database.answerPage_eq_ok_iff hsize' rfl).mpr ⟨_, _, hstart, hlater, rfl⟩)
  obtain ⟨results, hquery, hfront, -⟩ := pagedThrough_exact hnext
    (fun q hq => by cases hq; rfl) fun results h => by
      obtain rfl := Except.ok.inj (hlater.symm.trans h)
      exact hbound
  exact ⟨_, hnext, results, hquery, hfront⟩

end DocStore
