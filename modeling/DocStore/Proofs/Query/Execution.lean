import DocStore.Proofs.Run
import DocStore.Query.Paging
import Mathlib.Data.List.Infix

/-!
# The stages of a query

The outcome of a query is that of its stages in a row
(`outcome_execute`), and an error is that of one of them
(`execute_error_cases`). For the filter there is one equation for each
way a document can go: decided, at fault in either mode, or failed.

Filter and projection look at one document at a time, so they take lists
apart (`filterDocuments_append`, `prefix_projectDocuments`); with a
limit, which takes from the front, the result of a query without sort
keys on more documents starts with its result on the first of them
(`prefix_execute`).
-/

namespace DocStore

/-! ## Filter -/

section Step

variable {r : Registry} {condition : Expr} {document : Json} {ns : List Notice} {e : EvalError}

/-- A document for which the condition has a truth value is reported with
it, and kept if it is true. -/
theorem filterDocuments_of_decided (strict : Bool) {matched : Bool}
    (h : condition.holds r document = ⟨ns, .ok matched⟩) (rest : List Json) :
    filterDocuments r strict condition (document :: rest) =
      ⟨ns ++ .predicate document matched none ::
          (filterDocuments r strict condition rest).notices,
        (filterDocuments r strict condition rest).outcome.map fun kept =>
          if matched then document :: kept else kept⟩ := by
  rw [filterDocuments, h]
  simp only [Run.bind_pure_eq]
  rfl

/-- A document at fault is reported with its error, and passed over. -/
theorem filterDocuments_of_fault (h : condition.holds r document = ⟨ns, .error e⟩)
    (he : e.isDocumentLevel = true) (rest : List Json) :
    filterDocuments r false condition (document :: rest) =
      ⟨ns ++ .predicate document false (some e) ::
          (filterDocuments r false condition rest).notices,
        (filterDocuments r false condition rest).outcome⟩ := by
  rw [filterDocuments, h]
  show Run.bind _ _ = _
  simp only [Run.attempt, Run.bind, he, if_true, Bool.false_eq_true, if_false]
  rfl

/-- In strict mode it ends the query. -/
theorem filterDocuments_strict_of_fault (h : condition.holds r document = ⟨ns, .error e⟩)
    (he : e.isDocumentLevel = true) (rest : List Json) :
    filterDocuments r true condition (document :: rest) =
      ⟨ns ++ [.predicate document false (some e)], .error e⟩ := by
  rw [filterDocuments, h]
  show Run.bind _ _ = _
  simp only [Run.attempt, Run.bind, he, if_true]
  rfl

/-- Any other error ends the query in either mode, and is not
reported. -/
theorem filterDocuments_of_failure (strict : Bool)
    (h : condition.holds r document = ⟨ns, .error e⟩) (he : e.isDocumentLevel = false)
    (rest : List Json) :
    filterDocuments r strict condition (document :: rest) = ⟨ns, .error e⟩ := by
  rw [filterDocuments, h]
  show Run.bind _ _ = _
  simp [Run.attempt, Run.bind, he, Run.fail]

/-- The filter ends in an error of the condition on one of the
documents. -/
theorem exists_of_filterDocuments_error {strict : Bool} {documents : List Json}
    (h : (filterDocuments r strict condition documents).outcome = .error e) :
    ∃ document ∈ documents, (condition.holds r document).outcome = .error e := by
  induction documents with
  | nil => cases h
  | cons document rest ih =>
      have hlater : (filterDocuments r strict condition rest).outcome = .error e →
          ∃ d ∈ document :: rest, (condition.holds r d).outcome = .error e := by
        intro hrest
        obtain ⟨d, hd, he⟩ := ih hrest
        exact ⟨d, List.mem_cons_of_mem document hd, he⟩
      cases hholds : condition.holds r document with | mk ns o =>
      cases o with
      | ok matched =>
          rw [filterDocuments_of_decided strict hholds] at h
          exact hlater (map_eq_error_iff.mp h)
      | error cause =>
          have hhere : cause = e → ∃ d ∈ document :: rest,
              (condition.holds r d).outcome = .error e := by
            rintro rfl
            exact ⟨document, List.mem_cons_self .., by rw [hholds]⟩
          cases hlevel : cause.isDocumentLevel with
          | false =>
              rw [filterDocuments_of_failure strict hholds hlevel] at h
              exact hhere (Except.error.inj h)
          | true =>
              cases strict with
              | true =>
                  rw [filterDocuments_strict_of_fault hholds hlevel] at h
                  exact hhere (Except.error.inj h)
              | false =>
                  rw [filterDocuments_of_fault hholds hlevel] at h
                  exact hlater h

end Step

/-- Documents are filtered one by one: the condition is evaluated on
those behind as if they were alone. -/
theorem filterDocuments_append (r : Registry) (strict : Bool) (condition : Expr)
    (documents more : List Json) :
    filterDocuments r strict condition (documents ++ more) = (do
      let kept ← filterDocuments r strict condition documents
      let others ← filterDocuments r strict condition more
      pure (kept ++ others)) := by
  induction documents with
  | nil => simp [filterDocuments]
  | cons document documents ih =>
      rw [List.cons_append, filterDocuments, filterDocuments, bind_assoc]
      congr 1
      funext outcome
      cases outcome with
      | ok matched =>
          cases matched <;> simp [ih]
      | error e =>
          cases hlevel : e.isDocumentLevel with
          | true =>
              cases strict <;> simp [hlevel, ih]
          | false => simp [hlevel]

/-- The documents that the filter keeps for the query. -/
def Query.kept (r : Registry) (strict : Bool) (q : Query) (documents : List Json) :
    Except EvalError (List Json) :=
  match q.where? with
  | none => .ok documents
  | some condition => (filterDocuments r strict condition documents).outcome

theorem Query.kept_append (r : Registry) (strict : Bool) (q : Query)
    (documents more : List Json) :
    q.kept r strict (documents ++ more) = (do
      let kept ← q.kept r strict documents
      let others ← q.kept r strict more
      return kept ++ others) := by
  unfold Query.kept
  cases q.where? with
  | none => rfl
  | some condition =>
      simp only [filterDocuments_append, Run.outcome_bind, Run.outcome_pure]
      rfl

/-! ## The stages in a row -/

/-- The filter of the query, with what it reports. -/
def Query.search (r : Registry) (strict : Bool) (q : Query) (documents : List Json) :
    Noticed EvalError (List Json) :=
  match q.where? with
  | none => pure documents
  | some condition => filterDocuments r strict condition documents

theorem Query.outcome_search (r : Registry) (strict : Bool) (q : Query)
    (documents : List Json) :
    (q.search r strict documents).outcome = q.kept r strict documents := by
  unfold Query.search Query.kept
  cases q.where? <;> rfl

/-- The stages behind the filter of so many documents. -/
def Query.finish (q : Query) (total : Nat) (filtered : List Json) :
    Noticed ExecutionError (List Json) := do
  Run.notify (.stage .filter total filtered.length)
  let ordered ← (Run.ofExcept (orderDocuments q.orderBy filtered)).mapError .ordering
  Run.notify (.stage .order filtered.length ordered.length)
  let limited := limitDocuments q.limit ordered
  Run.notify (.stage .limit ordered.length limited.length)
  let projected ← (Run.ofExcept (projectDocuments q.projection limited)).mapError .projection
  Run.notify (.stage .project limited.length projected.length)
  pure projected

theorem execute_eq (r : Registry) (strict : Bool) (q : Query) (documents : List Json) :
    q.execute r strict documents =
      (q.search r strict documents).mapError .evaluation >>= q.finish documents.length := by
  unfold Query.execute Query.search
  cases q.where? <;> rfl

theorem outcome_finish (q : Query) (total : Nat) (filtered : List Json) :
    (q.finish total filtered).outcome = (do
      let ordered ← (orderDocuments q.orderBy filtered).mapError .ordering
      (projectDocuments q.projection (limitDocuments q.limit ordered)).mapError
        .projection) := by
  simp only [Query.finish, Run.outcome_bind, Run.outcome_notify, Run.outcome_pure,
    Run.outcome_mapError, Run.outcome_ofExcept, ok_bind, bind_ok]

theorem outcome_execute (r : Registry) (strict : Bool) (q : Query) (documents : List Json) :
    (q.execute r strict documents).outcome = (do
      let kept ← (q.kept r strict documents).mapError .evaluation
      let ordered ← (orderDocuments q.orderBy kept).mapError .ordering
      (projectDocuments q.projection (limitDocuments q.limit ordered)).mapError
        .projection) := by
  rw [execute_eq, Run.outcome_bind, Run.outcome_mapError, q.outcome_search]
  simp only [outcome_finish]

/-- A query ends in the error of one of its stages. -/
theorem execute_error_cases {r : Registry} {strict : Bool} {q : Query} {documents : List Json}
    {e : ExecutionError} (h : (q.execute r strict documents).outcome = .error e) :
    (∃ cause, q.kept r strict documents = .error cause ∧ e = .evaluation cause) ∨
      (∃ kept cause, q.kept r strict documents = .ok kept ∧
        orderDocuments q.orderBy kept = .error cause ∧ e = .ordering cause) ∨
      ∃ kept ordered cause, q.kept r strict documents = .ok kept ∧
        orderDocuments q.orderBy kept = .ok ordered ∧
        projectDocuments q.projection (limitDocuments q.limit ordered) = .error cause ∧
        e = .projection cause := by
  simp only [outcome_execute, bind_eq_error_iff, mapError_eq_error_iff,
    mapError_eq_ok_iff] at h
  rcases h with ⟨cause, hkept, rfl⟩ | ⟨kept, hkept, ⟨cause, hordered, rfl⟩ |
    ⟨ordered, hordered, cause, hprojected, rfl⟩⟩
  · exact .inl ⟨cause, hkept, rfl⟩
  · exact .inr (.inl ⟨kept, cause, hkept, hordered, rfl⟩)
  · exact .inr (.inr ⟨kept, ordered, cause, hkept, hordered, hprojected, rfl⟩)

/-! ## More documents -/

section More

variable {r : Registry} {strict : Bool} {q : Query} {documents more results others : List Json}

theorem prefix_limitDocuments (limit : Option Nat) (documents more : List Json) :
    limitDocuments limit documents <+: limitDocuments limit (documents ++ more) := by
  cases limit with
  | none => exact List.prefix_append ..
  | some n => exact List.IsPrefix.take (List.prefix_append ..) n

/-- Documents are projected one by one. -/
theorem prefix_projectDocuments {projection : Projection} (h : documents <+: more)
    (hresults : projectDocuments projection documents = .ok results)
    (hothers : projectDocuments projection more = .ok others) : results <+: others := by
  cases projection with
  | everything =>
      obtain rfl := Except.ok.inj hresults
      obtain rfl := Except.ok.inj hothers
      exact h
  | items items =>
      obtain ⟨rest, rfl⟩ := h
      rw [projectDocuments] at hresults hothers
      rw [List.mapM_append, hresults, ok_bind, bind_eq_ok_iff] at hothers
      obtain ⟨projected, -, ⟨⟩⟩ := hothers
      exact List.prefix_append ..

/-- The stages have results in turn. -/
theorem execute_eq_ok_iff :
    (q.execute r strict documents).outcome = .ok results ↔
      ∃ kept ordered, q.kept r strict documents = .ok kept ∧
        orderDocuments q.orderBy kept = .ok ordered ∧
        projectDocuments q.projection (limitDocuments q.limit ordered) = .ok results := by
  simp only [outcome_execute, bind_eq_ok_iff, mapError_eq_ok_iff]
  constructor
  · rintro ⟨kept, hkept, ordered, h⟩
    exact ⟨kept, ordered, hkept, h⟩
  · rintro ⟨kept, ordered, hkept, h⟩
    exact ⟨kept, hkept, ordered, h⟩

/-- Without sort keys, the result on more documents starts with the
result on the first of them. -/
theorem prefix_execute (hkeys : q.orderBy = [])
    (hresults : (q.execute r strict documents).outcome = .ok results)
    (hothers : (q.execute r strict (documents ++ more)).outcome = .ok others) :
    results <+: others := by
  rw [execute_eq_ok_iff, hkeys] at hresults hothers
  obtain ⟨kept, _, hkept, ⟨⟩, hprojected⟩ := hresults
  obtain ⟨all, _, hall, ⟨⟩, hprojected'⟩ := hothers
  rw [q.kept_append, hkept, ok_bind, bind_eq_ok_iff] at hall
  obtain ⟨rest, -, ⟨⟩⟩ := hall
  exact prefix_projectDocuments (prefix_limitDocuments q.limit kept rest) hprojected hprojected'

/-- A query text is run if it is parsed and its query is executed. -/
theorem runQuery_eq_ok_iff {text : String} {parameters : Json} :
    (runQuery r strict text parameters documents).outcome = .ok results ↔
      ∃ q, Query.parse r text parameters = .ok q ∧
        (q.execute r strict documents).outcome = .ok results := by
  have hparse : (parseNoticed r text parameters).outcome = Query.parse r text parameters := by
    unfold parseNoticed
    rw [Run.outcome_bind_of_ok (Run.outcome_notify _)]
    split <;> rename_i h <;> rw [h] <;> rfl
  simp only [runQuery, Run.outcome_bind, Run.outcome_mapError, hparse, bind_eq_ok_iff,
    mapError_eq_ok_iff]

/-- A page request looks at its token, then runs the query. -/
theorem outcome_servePage {text : String} {parameters : Json} {n : Nat} (hn : 0 < n)
    (token : Option String) :
    (servePage r strict text documents (.int n) token parameters).outcome = (do
      let offset ← (startOffset text n token).mapError .token
      let results ← (runQuery r strict text parameters documents).outcome
      return pageOf text n offset results) := by
  have hsize : positiveSize? (.int n) = some n := by
    obtain ⟨m, rfl⟩ : ∃ m, n = m + 1 := ⟨n - 1, by omega⟩
    rfl
  simp only [servePage, hsize, Run.outcome_bind, Run.outcome_ofExcept, Run.outcome_notify,
    Run.outcome_pure, ok_bind]
  rfl

end More

end DocStore
