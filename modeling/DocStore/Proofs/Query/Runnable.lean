import DocStore.Proofs.Query.Derivation
import DocStore.Proofs.Query.Evaluation
import DocStore.Query.Execution

/-!
# What is parsed can be run

The rules beyond the grammar are what running a query needs. Functions
are called with the arguments that they take, so its condition is
callable, and the whole document is selected alone or under a name, so
every value that is selected has a place in the result
(`runnable_of_parse`). Its projection then has a result on every
document (`endsIn_projectDocuments`).
-/

namespace DocStore

/-- The query can be run: its condition is callable, and selected values
have a place in the result. -/
structure Query.Runnable (r : Registry) (q : Query) : Prop where
  condition : ∀ e, q.where? = some e → e.Callable r
  output : ∀ items, q.projection = .items items → ∀ item ∈ items, item.output ≠ []

section Callable

variable {ctx : ParseContext} {values : Parameters} {aliases : List String}

mutual

/-- By recursion on the expression as written. -/
theorem callable_expr : (e : RawExpr) → e.Admitted ctx →
    (e.expr values aliases).Callable ctx.registry
  | .literal _, _ => trivial
  | .parameter _, _ => trivial
  | .path _, _ => trivial
  | .not _ e, h => ⟨rfl, callable_expr e (RawExpr.admitted_not_iff.mp h)⟩
  | .binary _ _ l r, h =>
      ⟨callable_expr l (RawExpr.admitted_binary_iff.mp h).1,
        callable_expr r (RawExpr.admitted_binary_iff.mp h).2⟩
  | .call name args, h => by
      obtain ⟨⟨f, hf, harity⟩, hargs⟩ := RawExpr.admitted_call_iff.mp h
      refine ⟨⟨f, hf, ?_⟩, callable_exprAll args hargs⟩
      rw [RawExpr.exprAll_eq_map, List.length_map]
      exact harity

theorem callable_exprAll : (es : List RawExpr) → (∀ e ∈ es, e.Admitted ctx) →
    Expr.CallableAll ctx.registry (RawExpr.exprAll values aliases es)
  | [], _ => trivial
  | e :: es, h =>
      ⟨callable_expr e (h e (List.mem_cons_self ..)),
        callable_exprAll es fun e' he => h e' (List.mem_cons_of_mem e he)⟩

end

end Callable

/-- A selected path has no place in the result only if it selects the
whole document without a name. -/
theorem RawItem.isWhole_of_output {aliases : List String} {item : RawItem}
    (h : (item.strip aliases).output = []) : item.isWhole aliases = true := by
  obtain ⟨path, alias?⟩ := item
  cases alias? with
  | some name => cases h
  | none =>
      have h : path.below aliases = [] := h
      rw [RawItem.isWhole, h]
      rfl

/-- The rules beyond the grammar make a query runnable. -/
theorem RawQuery.Admitted.runnable {registry : Registry} {values : Parameters} {raw : RawQuery}
    (h : raw.Admitted registry values) (text : String) :
    (raw.query values text).Runnable registry where
  condition e he := by
    obtain ⟨e, hwhere, rfl⟩ := Option.map_eq_some_iff.mp he
    exact callable_expr e (h.where? raw.aliases .start e hwhere)
  output items hitems item hitem := by
    have hitems : projectionOf raw.aliases raw.projection = .items items := hitems
    unfold projectionOf at hitems
    split at hitems
    · cases hitems
    · split at hitems
      · cases hitems
      · rename_i written hwhole
        obtain rfl := (Projection.items.inj hitems)
        obtain ⟨item, hmem, rfl⟩ := List.mem_map.mp hitem
        intro hempty
        exact hwhole (List.any_eq_true.mpr ⟨item, hmem, RawItem.isWhole_of_output hempty⟩)

/-- A query that is parsed was written, and keeps the rules beyond the
grammar. -/
theorem exists_of_parse {registry : Registry} {text : String} {given : Json} {q : Query}
    (h : Query.parse registry text given = .ok q) :
    ∃ tokens stop values raw, TokenList.ofText text = .ok ⟨tokens, stop⟩ ∧
      Parameters.normalize given = .ok values ∧ DerivesQuery tokens raw ∧
      raw.Admitted registry values ∧ q = raw.query values text := by
  rw [Query.parse] at h
  cases hblank : isBlankText text with
  | true =>
      rw [hblank] at h
      cases h
  | false =>
      rw [hblank] at h
      simp only [Bool.false_eq_true, if_false, bind_eq_ok_iff, mapError_eq_ok_iff] at h
      obtain ⟨⟨tokens, stop⟩, htext, values, hvalues, hread⟩ := h
      obtain ⟨raw, hraw, hadmitted, hq⟩ :=
        (yields_readQuery registry values stop text tokens).of_ok hread
      exact ⟨tokens, stop, values, raw, htext, hvalues, hraw, hadmitted, hq⟩

/-- What the parser accepts can be run. -/
theorem runnable_of_parse {registry : Registry} {text : String} {given : Json} {q : Query}
    (h : Query.parse registry text given = .ok q) : q.Runnable registry := by
  obtain ⟨-, -, values, raw, -, -, -, hadmitted, rfl⟩ := exists_of_parse h
  exact hadmitted.runnable text

/-! ## Projection -/

section Projection

variable {bad : PathError → Prop}

/-- Nothing can go wrong at a path that is not empty. -/
theorem endsIn_set (fields : Fields) {path : List String} (h : path ≠ []) (v : Json) :
    EndsIn (Fields.set fields path v) (fun _ => True) bad := by
  cases path with
  | nil => exact absurd rfl h
  | cons segment rest => exact trivial

theorem endsIn_projectItem (document : Json) (fields : Fields) {item : SelectItem}
    (h : item.output ≠ []) : EndsIn (projectItem document fields item) (fun _ => True) bad := by
  unfold projectItem
  split
  · exact trivial
  · exact endsIn_set fields h _

theorem endsIn_projectDocument {items : List SelectItem} (h : ∀ item ∈ items, item.output ≠ [])
    (document : Json) : EndsIn (projectDocument items document) (fun _ => True) bad := by
  have hfold : ∀ fields,
      EndsIn (items.foldlM (projectItem document) fields) (fun _ => True) bad := by
    induction items with
    | nil => exact fun _ => trivial
    | cons item items ih =>
        intro fields
        rw [List.foldlM_cons]
        exact (endsIn_projectItem document fields (h item (List.mem_cons_self ..))).bind
          fun next _ => ih (fun i hi => h i (List.mem_cons_of_mem item hi)) next
  exact (hfold _).bind fun _ _ => trivial

/-- Every document is projected. -/
theorem endsIn_projectDocuments {projection : Projection}
    (h : ∀ items, projection = .items items → ∀ item ∈ items, item.output ≠ [])
    (documents : List Json) :
    EndsIn (projectDocuments projection documents) (fun _ => True) bad := by
  cases projection with
  | everything => exact trivial
  | items items =>
      rw [projectDocuments]
      induction documents with
      | nil => exact trivial
      | cons document rest ih =>
          rw [List.mapM_cons]
          exact (endsIn_projectDocument (h items rfl) document).bind
            fun _ _ => ih.bind fun _ _ => trivial

end Projection

end DocStore
