import DocStore.Proofs.Query.Evaluation
import DocStore.Proofs.Query.Execution
import DocStore.Proofs.Query.Printer

/-!
# Spelling plays no part in execution

A query keeps its text, the paths as they are spelled, the places in the
text and the name of its source for messages. Without them
(`Query.unspelled`) it has the same results, and fails for the same
causes: only the place that an error points to is lost
(`execute_unspelled`).
-/

namespace DocStore

/-! ## What is left out -/

namespace Expr

mutual

/-- The expression without the places in the query text and the paths as
they are spelled there. -/
def unspelled : Expr → Expr
  | constant v _ => constant v none
  | property _ segments _ => property "" segments none
  | unary op e _ => unary op e.unspelled none
  | binary op l r _ => binary op l.unspelled r.unspelled none
  | call name args _ => call name (unspelledAll args) none

def unspelledAll : List Expr → List Expr
  | [] => []
  | e :: es => e.unspelled :: unspelledAll es

end

theorem length_unspelledAll (es : List Expr) : (unspelledAll es).length = es.length := by
  induction es with
  | nil => rfl
  | cons e es ih => rw [unspelledAll, List.length_cons, List.length_cons, ih]

mutual

theorem unspelled_unplaced : ∀ e : Expr, e.unplaced.unspelled = e.unspelled
  | constant v _ | property _ segments _ => rfl
  | unary op e _ => by rw [unplaced, unspelled, unspelled, unspelled_unplaced e]
  | binary op l r _ => by
      rw [unplaced, unspelled, unspelled, unspelled_unplaced l, unspelled_unplaced r]
  | call name args _ => by rw [unplaced, unspelled, unspelled, unspelledAll_unplacedAll args]

theorem unspelledAll_unplacedAll : ∀ es : List Expr,
    unspelledAll (unplacedAll es) = unspelledAll es
  | [] => rfl
  | e :: es => by
      rw [unplacedAll, unspelledAll, unspelledAll, unspelled_unplaced e,
        unspelledAll_unplacedAll es]

end

end Expr

/-- The selected path without its spelling. -/
def SelectItem.unspelled (item : SelectItem) : SelectItem :=
  { item with path := "" }

def Projection.unspelled : Projection → Projection
  | everything => everything
  | items selected => items (selected.map (·.unspelled))

/-- The sort key without the spelling of its path. -/
def SortKey.unspelled (key : SortKey) : SortKey :=
  { key with path := "" }

/-- The query without its text, the paths as they are spelled there, the
places in it and the name of its source. -/
def Query.unspelled (q : Query) : Query where
  text := ""
  projection := q.projection.unspelled
  container := ""
  alias? := none
  where? := q.where?.map (·.unspelled)
  orderBy := q.orderBy.map (·.unspelled)
  limit := q.limit

/-- Queries that differ in places alone are spelled alike. -/
theorem Query.unspelled_unplaced (q : Query) : q.unplaced.unspelled = q.unspelled := by
  simp only [unspelled, unplaced, Option.map_map, Function.comp_def, Expr.unspelled_unplaced]

/-- The error without its place in the query text. -/
def EvalError.unplaced : EvalError → EvalError
  | unsupportedComparison op left right _ => unsupportedComparison op left right none
  | invalidOperand kind _ => invalidOperand kind none
  | unknownFunction name _ => unknownFunction name none
  | wrongArity name arity given _ => wrongArity name arity given none
  | unsupportedOperator op _ => unsupportedOperator op none
  | overflow e => overflow e
  | call e => call e

theorem EvalError.isDocumentLevel_unplaced (e : EvalError) :
    e.unplaced.isDocumentLevel = e.isDocumentLevel := by
  cases e <;> rfl

def ExecutionError.unplaced : ExecutionError → ExecutionError
  | evaluation e => evaluation e.unplaced
  | ordering e => ordering e
  | projection e => projection e

/-! ## Evaluation -/

theorem negate_unplaced (at? : Option Position) (v : Value) :
    negate none v = (negate at? v).mapError EvalError.unplaced := by
  unfold negate
  split <;> rfl

theorem Comparison.eval_unplaced (c : Comparison) (at? : Option Position) (v w : Value) :
    c.eval none v w = (c.eval at? v w).mapError EvalError.unplaced := by
  unfold eval evalDefined
  split
  · split
    · cases Json.equal _ _ <;> rfl
    · cases Json.equal _ _ <;> rfl
    · split <;> rfl
  · rfl

namespace Expr

variable (r : Registry) (document : Json)

theorem eval_connective_unspelled (k : Connective) {left right left' right' : Expr}
    (at? at?' : Option Position)
    (hleft : (left'.eval r document).outcome =
      (left.eval r document).outcome.mapError EvalError.unplaced)
    (hright : (right'.eval r document).outcome =
      (right.eval r document).outcome.mapError EvalError.unplaced) :
    ((binary k.op left' right' at?').eval r document).outcome =
      ((binary k.op left right at?).eval r document).outcome.mapError EvalError.unplaced := by
  rw [eval_connective, eval_connective, Run.outcome_bind, Run.outcome_bind, mapError_bind, hleft]
  refine bind_congr fun v => ?_
  by_cases hdecisive : v.truth = some k.decisive
  · rw [k.goOn_of_decisive hdecisive, k.goOn_of_decisive hdecisive]
    rfl
  · rw [k.goOn_of_not_decisive hdecisive, k.goOn_of_not_decisive hdecisive, Run.outcome_bind,
      Run.outcome_bind, mapError_bind, hright]
    rfl

mutual

/-- By recursion on the expression. -/
theorem eval_unspelled : (e : Expr) → (e.unspelled.eval r document).outcome =
    (e.eval r document).outcome.mapError EvalError.unplaced
  | constant v _ => by
      rw [unspelled, eval, eval]
      rfl
  | property _ segments _ => by
      rw [unspelled, eval, eval]
      rfl
  | unary .not e at? => by
      rw [unspelled, outcome_not, outcome_not, mapError_bind, eval_unspelled e]
      exact bind_congr fun v => negate_unplaced at? v
  | unary (.misplaced op) e at? => by
      rw [unspelled, eval, eval]
      rfl
  | binary (.compare c) left right at? => by
      rw [unspelled, outcome_compare, outcome_compare, mapError_bind, eval_unspelled left]
      refine bind_congr fun v => ?_
      rw [mapError_bind, eval_unspelled right]
      exact bind_congr fun w => c.eval_unplaced at? v w
  | binary .and left right at? =>
      eval_connective_unspelled r document .and at? none (eval_unspelled left)
        (eval_unspelled right)
  | binary .or left right at? =>
      eval_connective_unspelled r document .or at? none (eval_unspelled left)
        (eval_unspelled right)
  | call name args at? => by
      rw [unspelled, eval, eval]
      cases r.lookup name with
      | none => rfl
      | some f =>
          simp only [length_unspelledAll]
          split
          · rw [Run.outcome_bind, Run.outcome_bind, mapError_bind, evalArgs_unspelled args]
            refine bind_congr fun vs => ?_
            rw [Run.outcome_ofExcept, Run.mapError_mapError]
            rfl
          · rfl

theorem evalArgs_unspelled : (es : List Expr) → (evalArgs r document (unspelledAll es)).outcome =
    (evalArgs r document es).outcome.mapError EvalError.unplaced
  | [] => by
      rw [unspelledAll, evalArgs]
      rfl
  | e :: es => by
      rw [unspelledAll, evalArgs, evalArgs, Run.outcome_bind, Run.outcome_bind, mapError_bind,
        eval_unspelled e]
      refine bind_congr fun v => ?_
      rw [Run.outcome_bind, Run.outcome_bind, mapError_bind, evalArgs_unspelled es]
      rfl

end

theorem holds_unspelled (e : Expr) : (e.unspelled.holds r document).outcome =
    (e.holds r document).outcome.mapError EvalError.unplaced := by
  rw [holds, holds, Run.outcome_bind, Run.outcome_bind, mapError_bind, eval_unspelled]
  rfl

end Expr

/-! ## The stages -/

theorem filterDocuments_unspelled (r : Registry) (strict : Bool) (condition : Expr)
    (documents : List Json) : (filterDocuments r strict condition.unspelled documents).outcome =
      (filterDocuments r strict condition documents).outcome.mapError EvalError.unplaced := by
  induction documents with
  | nil => rfl
  | cons document documents ih =>
      have hholds := condition.holds_unspelled r document
      cases h : condition.holds r document with | mk ns outcome =>
      cases h' : condition.unspelled.holds r document with | mk ns' outcome' =>
      rw [h, h'] at hholds
      obtain rfl := hholds
      cases outcome with
      | ok matched =>
          rw [filterDocuments_of_decided strict h, filterDocuments_of_decided strict h']
          simp only [ih]
          cases (filterDocuments r strict condition documents).outcome <;> rfl
      | error e =>
          cases hlevel : e.isDocumentLevel with
          | false =>
              have hlevel' := e.isDocumentLevel_unplaced.trans hlevel
              rw [filterDocuments_of_failure strict h hlevel,
                filterDocuments_of_failure strict h' hlevel']
              rfl
          | true =>
              have hlevel' := e.isDocumentLevel_unplaced.trans hlevel
              cases strict with
              | true =>
                  rw [filterDocuments_strict_of_fault h hlevel,
                    filterDocuments_strict_of_fault h' hlevel']
                  rfl
              | false =>
                  rw [filterDocuments_of_fault h hlevel, filterDocuments_of_fault h' hlevel']
                  exact ih

theorem compareDocuments_unspelled (keys : List SortKey) (a b : Json) :
    compareDocuments (keys.map (·.unspelled)) a b = compareDocuments keys a b := by
  induction keys with
  | nil => rfl
  | cons key keys ih =>
      rw [List.map_cons, compareDocuments, compareDocuments, ih]
      rfl

theorem orderDocuments_unspelled (keys : List SortKey) (documents : List Json) :
    orderDocuments (keys.map (·.unspelled)) documents = orderDocuments keys documents := by
  unfold orderDocuments
  simp only [List.isEmpty_map, compareDocuments_unspelled]

theorem projectDocument_unspelled (items : List SelectItem) (document : Json) :
    projectDocument (items.map (·.unspelled)) document = projectDocument items document := by
  unfold projectDocument
  simp only [List.foldlM_map]
  rfl

theorem projectDocuments_unspelled (projection : Projection) (documents : List Json) :
    projectDocuments projection.unspelled documents = projectDocuments projection documents := by
  cases projection with
  | everything => rfl
  | items items =>
      rw [Projection.unspelled, projectDocuments, projectDocuments]
      congr 1
      funext document
      exact projectDocument_unspelled items document

/-- **Spelling plays no part in execution.** A query without its text
and the spelling of its paths has the same results on all documents, and
fails for the same causes. -/
theorem execute_unspelled (r : Registry) (strict : Bool) (q : Query) (documents : List Json) :
    (q.unspelled.execute r strict documents).outcome =
      (q.execute r strict documents).outcome.mapError ExecutionError.unplaced := by
  have hkept : q.unspelled.kept r strict documents =
      (q.kept r strict documents).mapError EvalError.unplaced := by
    unfold Query.kept Query.unspelled
    cases q.where? with
    | none => rfl
    | some condition => exact filterDocuments_unspelled r strict condition documents
  rw [outcome_execute, outcome_execute, mapError_bind, hkept, Run.mapError_mapError,
    Run.mapError_mapError]
  refine bind_congr fun kept => ?_
  rw [mapError_bind, Run.mapError_mapError, Query.unspelled, orderDocuments_unspelled]
  refine bind_congr fun ordered => ?_
  rw [Run.mapError_mapError, projectDocuments_unspelled]
  rfl

end DocStore
