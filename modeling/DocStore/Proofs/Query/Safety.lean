import DocStore.Proofs.Query.Execution
import DocStore.Proofs.Query.Runnable

/-!
# What is parsed runs without faults of its own

Three errors of evaluation say that the query itself is wrong, whatever
the document (`EvalError.isStatic`): a function nobody registered, one
called with another number of arguments than it takes, and an operator
without a meaning where it stands. A parsed query never ends in one of
them, with the functions that it was parsed with, nor in a selected
value that has no place in the result (`run_of_parse`).
-/

namespace DocStore

namespace EvalError

/-- The query is wrong, whatever the document. -/
def isStatic : EvalError → Bool
  | unknownFunction .. | wrongArity .. | unsupportedOperator .. => true
  | unsupportedComparison .. | invalidOperand .. | overflow _ | call _ => false

end EvalError

/-! ## Evaluation -/

/-- No step of the evaluation of a callable expression shows the query
to be wrong. -/
theorem evalInvariant_dynamic (r : Registry) (document : Json) :
    EvalInvariant r document (fun _ => True) (·.isStatic = false) where
  property _ := trivial
  truth _ := trivial
  negate at? v _ := by
    refine (endsIn_negate at? v).mono (fun _ _ => trivial) ?_
    rintro _ ⟨kind, rfl⟩
    rfl
  compare c at? v w _ _ := by
    match v, w with
    | some v, some w =>
        refine EndsIn.map ((endsIn_evalDefined c at? v w).mono (fun _ h => h) ?_)
          fun _ _ => trivial
        rintro _ (⟨cause, rfl, -⟩ | ⟨left, right, rfl⟩)
        · rfl
        · rfl
    | none, _ => exact trivial
    | some _, none => exact trivial
  run _ _ _ _ _ _ := (EndsIn.trivial _).mapError fun _ _ => rfl

theorem endsIn_eval_dynamic {r : Registry} {condition : Expr} (h : condition.Callable r)
    (document : Json) :
    EndsIn (condition.eval r document).outcome (fun _ => True) (·.isStatic = false) :=
  (evalInvariant_dynamic r document).endsIn_eval condition (fun _ _ => trivial) h

theorem endsIn_filterDocuments_dynamic {r : Registry} {condition : Expr}
    (h : condition.Callable r) (strict : Bool) (documents : List Json) :
    EndsIn (filterDocuments r strict condition documents).outcome (fun _ => True)
      (·.isStatic = false) := by
  cases hout : (filterDocuments r strict condition documents).outcome with
  | ok kept => exact trivial
  | error e =>
      obtain ⟨document, -, he⟩ := exists_of_filterDocuments_error hout
      rw [Expr.holds, Run.bind_pure_eq] at he
      exact (endsIn_eval_dynamic h document).of_error (map_eq_error_iff.mp he)

/-! ## Queries -/

/-- A query that can be run ends in an error that depends on the
documents, if in any. -/
theorem Query.Runnable.error_cases {r : Registry} {q : Query} (h : q.Runnable r)
    {strict : Bool} {documents : List Json} {e : ExecutionError}
    (he : (q.execute r strict documents).outcome = .error e) :
    (∃ cause, e = .evaluation cause ∧ cause.isStatic = false) ∨ ∃ cause, e = .ordering cause := by
  rcases execute_error_cases he with
    ⟨cause, hkept, rfl⟩ | ⟨_, cause, -, -, rfl⟩ | ⟨_, ordered, cause, -, -, hprojected, -⟩
  · refine .inl ⟨cause, rfl, ?_⟩
    unfold Query.kept at hkept
    split at hkept
    · cases hkept
    · rename_i condition hwhere
      exact (endsIn_filterDocuments_dynamic (h.condition condition hwhere) strict
        documents).of_error hkept
  · exact .inr ⟨cause, rfl⟩
  · have hends : EndsIn (projectDocuments q.projection (limitDocuments q.limit ordered))
        (fun _ => True) fun _ => False := endsIn_projectDocuments h.output _
    exact (hends.of_error hprojected).elim

/-- **What the parser accepts can be run.** With the functions that the
query was parsed with, its condition is evaluated on a document without
meeting an unknown function, a wrong number of arguments or an operator
out of place; every document is projected; and a run of the query ends
in none of these errors. -/
theorem run_of_parse {registry : Registry} {text : String} {given : Json} {q : Query}
    (h : Query.parse registry text given = .ok q) :
    (∀ condition document e, q.where? = some condition →
        (condition.eval registry document).outcome = .error e → e.isStatic = false) ∧
      (∀ items document, q.projection = .items items →
        ∃ result, projectDocument items document = .ok result) ∧
      ∀ strict documents e, (q.execute registry strict documents).outcome = .error e →
        (∃ cause, e = .evaluation cause ∧ cause.isStatic = false) ∨
          ∃ cause, e = .ordering cause := by
  have hrunnable := runnable_of_parse h
  refine ⟨?_, ?_, ?_⟩
  · intro condition document e hwhere he
    exact (endsIn_eval_dynamic (hrunnable.condition condition hwhere) document).of_error he
  · intro items document hitems
    have hends : EndsIn (projectDocument items document) (fun _ => True) fun _ => False :=
      endsIn_projectDocument (hrunnable.output items hitems) document
    obtain ⟨result, hresult, -⟩ := hends.exists_ok fun _ h => h
    exact ⟨result, hresult⟩
  · intro strict documents e he
    exact hrunnable.error_cases he

/-- A function is added that raises an error of its own, and a built-in
one replaced by one that takes fewer arguments. -/
theorem run_of_parse_registered :
    let either : QueryFunction := .ofTest₂ fun v w =>
      if isDefined v && isDefined w then .ok (isNull v || isNull w)
      else .error (.raised (.plain "LookupError" "nothing there") false)
    let registry := (Registry.standard.register "either" either).register "contains"
      (.ofTest fun v => .ok (isDefined v))
    ∃ q, Query.parse registry
        "SELECT c.a, c AS whole FROM c WHERE NOT Either(c.a, c.b) AND c.n > 1 OR CONTAINS(c.d)"
        .null = .ok q ∧
      q.where?.isSome = true ∧
      ∀ strict documents e, (q.execute registry strict documents).outcome = .error e →
        (∃ cause, e = .evaluation cause ∧ cause.isStatic = false) ∨
          ∃ cause, e = .ordering cause := by
  intro either registry
  obtain ⟨q, hq, hwhere⟩ : ∃ q, Query.parse registry
      "SELECT c.a, c AS whole FROM c WHERE NOT Either(c.a, c.b) AND c.n > 1 OR CONTAINS(c.d)"
      .null = .ok q ∧ q.where?.isSome = true := exists_ok_of_any (by decide +kernel)
  exact ⟨q, hq, hwhere, (run_of_parse hq).2.2⟩

end DocStore
