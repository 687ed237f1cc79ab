import DocStore.Proofs.Query.Execution

/-!
# Lenient and strict queries

The two modes differ at documents that are at fault (`Expr.fault?`): a
lenient query passes over them, a strict one ends at the first. So a
lenient query is a strict one on the documents without fault
(`outcome_filterDocuments_lenient`), and a strict query that ends at a
document has sent, up to there, what the lenient one sends
(`filterDocuments_strict_of_error`). Errors of any other kind end both.
-/

namespace DocStore

/-! ## Documents at fault -/

namespace Expr

/-- The error of the condition on a document that is at fault. -/
def fault? (r : Registry) (condition : Expr) (document : Json) : Option EvalError :=
  match (condition.eval r document).outcome with
  | .ok _ => none
  | .error e => if e.isDocumentLevel then some e else none

theorem outcome_holds (r : Registry) (condition : Expr) (document : Json) :
    (condition.holds r document).outcome =
      (condition.eval r document).outcome.map fun v => v.truth == some true := by
  rw [holds, Run.bind_pure_eq]

/-- The condition has a truth value, or the document is at fault, or
something else is. -/
theorem holds_cases (r : Registry) (condition : Expr) (document : Json) :
    (∃ ns matched, condition.holds r document = ⟨ns, .ok matched⟩ ∧
        condition.fault? r document = none) ∨
      (∃ ns e, condition.holds r document = ⟨ns, .error e⟩ ∧ e.isDocumentLevel = true ∧
        condition.fault? r document = some e) ∨
      ∃ ns e, condition.holds r document = ⟨ns, .error e⟩ ∧ e.isDocumentLevel = false ∧
        condition.fault? r document = none := by
  have hout := condition.outcome_holds r document
  unfold fault?
  cases hholds : condition.holds r document with
  | mk ns o =>
      rw [hholds] at hout
      obtain rfl : o = _ := hout
      cases (condition.eval r document).outcome with
      | ok v => exact .inl ⟨ns, _, rfl, rfl⟩
      | error e =>
          cases he : e.isDocumentLevel with
          | true => exact .inr (.inl ⟨ns, e, rfl, he, by simp [he]⟩)
          | false => exact .inr (.inr ⟨ns, e, rfl, he, by simp [he]⟩)

end Expr

/-! ## Filter -/

section Filter

variable (r : Registry) (condition : Expr)

/-- A lenient filter is a strict one on the documents without fault. -/
theorem outcome_filterDocuments_lenient (documents : List Json) :
    (filterDocuments r false condition documents).outcome =
      (filterDocuments r true condition
        (documents.filter fun d => (condition.fault? r d).isNone)).outcome := by
  induction documents with
  | nil => rfl
  | cons document rest ih =>
      rcases condition.holds_cases r document with
        ⟨ns, matched, hholds, hfault⟩ | ⟨ns, e, hholds, he, hfault⟩ | ⟨ns, e, hholds, he, hfault⟩
      · rw [List.filter_cons_of_pos (by simp [hfault]),
          filterDocuments_of_decided false hholds, filterDocuments_of_decided true hholds, ih]
      · rw [List.filter_cons_of_neg (by simp [hfault]), filterDocuments_of_fault hholds he, ih]
      · rw [List.filter_cons_of_pos (by simp [hfault]),
          filterDocuments_of_failure false hholds he, filterDocuments_of_failure true hholds he]

/-- A strict filter that ends in the fault of a document: the document is
the first at fault, its report is the last notice, and a lenient filter
sends the same notices first. -/
theorem filterDocuments_strict_of_error {documents : List Json} {e : EvalError}
    (h : (filterDocuments r true condition documents).outcome = .error e)
    (hlevel : e.isDocumentLevel = true) :
    ∃ document, documents.find? (fun d => (condition.fault? r d).isSome) = some document ∧
      condition.fault? r document = some e ∧
      (filterDocuments r true condition documents).notices.getLast? =
        some (.predicate document false (some e)) ∧
      (filterDocuments r true condition documents).notices <+:
        (filterDocuments r false condition documents).notices := by
  induction documents with
  | nil => cases h
  | cons document rest ih =>
      rcases condition.holds_cases r document with
        ⟨ns, matched, hholds, hfault⟩ | ⟨ns, e', hholds, he, hfault⟩ | ⟨ns, e', hholds, he, -⟩
      · rw [filterDocuments_of_decided true hholds] at h ⊢
        rw [filterDocuments_of_decided false hholds]
        obtain ⟨first, hfirst, hfault', hlast, hprefix⟩ := ih (map_eq_error_iff.mp h)
        refine ⟨first, ?_, hfault', ?_, ?_⟩
        · rw [List.find?_cons_of_neg (by simp [hfault]), hfirst]
        · simp [List.getLast?_append, List.getLast?_cons, hlast]
        · exact (List.prefix_append_right_inj ns).mpr ((List.prefix_cons_inj _).mpr hprefix)
      · rw [filterDocuments_strict_of_fault hholds he] at h ⊢
        rw [filterDocuments_of_fault hholds he]
        obtain rfl : e' = e := Except.error.inj h
        refine ⟨document, ?_, hfault, by simp, ?_⟩
        · rw [List.find?_cons_of_pos (by simp [hfault])]
        · exact (List.prefix_append_right_inj ns).mpr
            ((List.prefix_cons_inj _).mpr (List.nil_prefix ..))
      · -- another error is not the document's fault
        rw [filterDocuments_of_failure true hholds he] at h
        obtain rfl : e' = e := Except.error.inj h
        rw [he] at hlevel
        cases hlevel

end Filter

/-! ## Queries -/

/-- The error of the query on a document that is at fault. -/
def Query.fault? (r : Registry) (q : Query) (document : Json) : Option EvalError :=
  q.where?.bind fun condition => condition.fault? r document

theorem Query.kept_lenient (r : Registry) (q : Query) (documents : List Json) :
    q.kept r false documents =
      q.kept r true (documents.filter fun d => (q.fault? r d).isNone) := by
  unfold Query.kept Query.fault?
  cases q.where? with
  | none => simp
  | some condition => exact outcome_filterDocuments_lenient r condition documents

/-- **A lenient query is a strict query on the documents that are not at
fault**: it has the same result, or ends in the same error. A strict
query that ends in the fault of a document ends at the first such
document, with the report of its error; all that it has sent is what the
lenient query sends first. -/
theorem execute_lenient_eq_strict (r : Registry) (q : Query) (documents : List Json) :
    (q.execute r false documents).outcome =
        (q.execute r true (documents.filter fun d => (q.fault? r d).isNone)).outcome ∧
      ∀ e, (q.execute r true documents).outcome = .error (.evaluation e) →
        e.isDocumentLevel = true →
        ∃ document, documents.find? (fun d => (q.fault? r d).isSome) = some document ∧
          q.fault? r document = some e ∧
          (q.execute r true documents).notices.getLast? =
            some (.predicate document false (some e)) ∧
          (q.execute r true documents).notices <+: (q.execute r false documents).notices := by
  refine ⟨?_, ?_⟩
  · rw [outcome_execute, outcome_execute, q.kept_lenient]
  · intro e h hlevel
    have hsearch : (q.search r true documents).outcome = .error e := by
      rw [q.outcome_search]
      rcases execute_error_cases h with ⟨_, hkept, ⟨⟩⟩ | ⟨_, _, -, -, ⟨⟩⟩ | ⟨_, _, _, -, -, -, ⟨⟩⟩
      exact hkept
    have hstrict : (q.execute r true documents).notices = (q.search r true documents).notices := by
      rw [execute_eq, Run.notices_bind_of_error (e := .evaluation e)]
      · rfl
      · rw [Run.outcome_mapError, hsearch]
        rfl
    have hlenient : (q.search r false documents).notices <+:
        (q.execute r false documents).notices := by
      rw [execute_eq]
      exact Run.prefix_notices_bind
        ((q.search r false documents).mapError ExecutionError.evaluation) _
    rw [hstrict]
    unfold Query.search at hsearch hlenient ⊢
    unfold Query.fault?
    cases hwhere : q.where? with
    | none =>
        rw [hwhere] at hsearch
        cases hsearch
    | some condition =>
        rw [hwhere] at hsearch hlenient
        obtain ⟨document, hfind, hfault, hlast, hprefix⟩ :=
          filterDocuments_strict_of_error r condition hsearch hlevel
        exact ⟨document, hfind, hfault, hlast, hprefix.trans hlenient⟩

/-- A text in the place of a number ends a strict query. -/
theorem execute_strict_text_for_number :
    ∃ q e document, Query.parse .standard "SELECT * FROM c WHERE c.age > 40" .null = .ok q ∧
      (q.execute .standard true
        [.obj [("id", .str "1"), ("age", .int 50)],
          .obj [("id", .str "2"), ("age", .str "thirty")]]).outcome =
        .error (.evaluation e) ∧
      e.isDocumentLevel = true ∧ q.fault? .standard document = some e ∧
      (q.execute .standard true
        [.obj [("id", .str "1"), ("age", .int 50)],
          .obj [("id", .str "2"), ("age", .str "thirty")]]).notices.getLast? =
        some (.predicate document false (some e)) := by
  obtain ⟨q, hq, herror⟩ : ∃ q, Query.parse .standard "SELECT * FROM c WHERE c.age > 40" .null =
      .ok q ∧ (match (q.execute .standard true
        [.obj [("id", .str "1"), ("age", .int 50)],
          .obj [("id", .str "2"), ("age", .str "thirty")]]).outcome with
        | .error (.evaluation e) => e.isDocumentLevel
        | _ => false) = true := exists_ok_of_any (by decide +kernel)
  split at herror
  · rename_i e he
    obtain ⟨document, -, hfault, hlast, -⟩ :=
      (execute_lenient_eq_strict .standard q _).2 e he herror
    exact ⟨q, e, document, hq, he, herror, hfault, hlast⟩
  · cases herror

end DocStore
