import DocStore.Proofs.Query.Lenient
import DocStore.Proofs.Query.Strictness

/-!
# Conjunctions of conditions

A lenient query keeps a document if its condition evaluates to a value
that counts as true (`Expr.selects_iff`); a document at fault is left out
like one for which the condition is false or undefined. So it makes no
difference which of two conditions stands in front of AND, although the
one in front may keep the other from being evaluated and from failing: if
either fails, it does not select the document, and neither does AND
(`Expr.selects_and`).

Running a query that filters by AND is then running the one that filters
by its first operand and, on what that keeps, the one that filters by its
second (`execute_and`).
-/

namespace DocStore

variable {r : Registry} {condition p q : Expr} {document : Json} {documents : List Json}

/-! ## Documents selected -/

theorem Expr.selects_iff :
    condition.selects r document = true ↔
      ∃ v, (condition.eval r document).outcome = .ok v ∧ v.truth = some true := by
  rw [Expr.selects, Expr.outcome_holds]
  cases (condition.eval r document).outcome with
  | error e => simp [Except.map]
  | ok v => simp [Except.map]

theorem Truth.and_eq_true_iff {s t : Truth} :
    Truth.and s t = some true ↔ s = some true ∧ t = some true := by
  match s, t with
  | some true, some true | some true, some false | some true, none | some false, some true
  | some false, some false | some false, none | none, some true | none, some false
  | none, none => decide

theorem Expr.selects_and (at? : Option Position) :
    (Expr.binary .and p q at?).selects r document =
      (p.selects r document && q.selects r document) := by
  rw [Bool.eq_iff_iff, Bool.and_eq_true, selects_iff, selects_iff, selects_iff, Expr.eval,
    Run.outcome_bind]
  constructor
  · rintro ⟨u, hu, htrue⟩
    obtain ⟨v, hv, hu⟩ := bind_eq_ok_iff.mp hu
    by_cases hfalse : v.truth = some false
    · rw [if_pos hfalse] at hu
      obtain rfl := Except.ok.inj hu
      cases htrue
    · rw [if_neg hfalse, Run.outcome_bind] at hu
      obtain ⟨w, hw, hu⟩ := bind_eq_ok_iff.mp hu
      obtain rfl := Except.ok.inj hu
      rw [truth_toValue, Truth.and_eq_true_iff] at htrue
      exact ⟨⟨v, hv, htrue.1⟩, w, hw, htrue.2⟩
  · rintro ⟨⟨v, hv, hvtrue⟩, w, hw, hwtrue⟩
    refine ⟨some (.bool true), ?_, rfl⟩
    rw [hv, ok_bind, if_neg (by simp [hvtrue]), Run.outcome_bind, hw, ok_bind, hvtrue, hwtrue]
    rfl

/-! ## Documents at fault -/

/-- The condition has a value on the document, or the document is at
fault. -/
def Expr.Forgiven (r : Registry) (condition : Expr) (document : Json) : Prop :=
  EndsIn (condition.eval r document).outcome (fun _ => True) fun e => e.isDocumentLevel = true

theorem Expr.Forgiven.and (hp : p.Forgiven r document) (hq : q.Forgiven r document)
    (at? : Option Position) : (Expr.binary .and p q at?).Forgiven r document := by
  rw [Forgiven, Expr.eval, Run.outcome_bind]
  refine EndsIn.bind hp fun v _ => ?_
  split
  · exact trivial
  · rw [Run.outcome_bind]
    exact EndsIn.bind hq fun _ _ => trivial

theorem outcome_filterDocuments_of_forgiven (h : ∀ d ∈ documents, condition.Forgiven r d) :
    (filterDocuments r false condition documents).outcome =
      .ok (documents.filter (condition.selects r)) := by
  induction documents with
  | nil => rfl
  | cons document rest ih =>
      have ih := ih fun d hd => h d (List.mem_cons_of_mem _ hd)
      rcases condition.holds_cases r document with
        ⟨ns, matched, hholds, -⟩ | ⟨ns, e, hholds, he, -⟩ | ⟨ns, e, hholds, he, -⟩
      · have hselects : condition.selects r document = matched := by rw [Expr.selects, hholds]
        rw [filterDocuments_of_decided false hholds, List.filter_cons, hselects]
        show Except.map _ _ = _
        rw [ih]
        rfl
      · have hselects : condition.selects r document = false := by rw [Expr.selects, hholds]
        rw [filterDocuments_of_fault hholds he, List.filter_cons_of_neg (by simp [hselects])]
        exact ih
      · -- any other error is not forgiven
        have heval : (condition.eval r document).outcome = .error e := by
          rw [← map_eq_error_iff, ← Expr.outcome_holds, hholds]
        have hlevel := EndsIn.of_error (h document (List.mem_cons_self ..)) heval
        rw [he] at hlevel
        cases hlevel

/-! ## Queries -/

/-- The query keeps whole documents by a condition, and does nothing
else. -/
structure Query.Filters (q : Query) (condition : Expr) : Prop where
  projection : q.projection = .everything
  condition : q.where? = some condition
  orderBy : q.orderBy = []
  limit : q.limit = none

theorem Query.Filters.outcome_execute {query : Query} (hquery : query.Filters condition)
    (h : ∀ d ∈ documents, condition.Forgiven r d) :
    (query.execute r false documents).outcome = .ok (documents.filter (condition.selects r)) := by
  rw [execute_eq_ok_iff, Query.kept, hquery.condition, hquery.projection, hquery.orderBy,
    hquery.limit]
  exact ⟨_, _, outcome_filterDocuments_of_forgiven h, rfl, rfl⟩

/-- **AND in a lenient query is filtering twice.** On documents on which
both conditions fail at most by a fault of the document, filtering by AND
is filtering by one condition and then, what is left, by the other; so the
operands of AND can be exchanged. -/
theorem execute_and {first second both turned : Query} {at? at?' : Option Position}
    (hfirst : first.Filters p) (hsecond : second.Filters q)
    (hboth : both.Filters (.binary .and p q at?)) (hturned : turned.Filters (.binary .and q p at?'))
    (hp : ∀ d ∈ documents, p.Forgiven r d) (hq : ∀ d ∈ documents, q.Forgiven r d) :
    ∃ kept results, (first.execute r false documents).outcome = .ok kept ∧
      (second.execute r false kept).outcome = .ok results ∧
      (both.execute r false documents).outcome = .ok results ∧
      (turned.execute r false documents).outcome = .ok results := by
  have hkept : ∀ d ∈ documents.filter (p.selects r), q.Forgiven r d :=
    fun d hd => hq d (List.mem_of_mem_filter hd)
  refine ⟨_, _, hfirst.outcome_execute hp, hsecond.outcome_execute hkept, ?_, ?_⟩
  · rw [hboth.outcome_execute fun d hd => (hp d hd).and (hq d hd) at?, List.filter_filter]
    refine congrArg Except.ok (List.filter_congr fun d _ => ?_)
    rw [Expr.selects_and, Bool.and_comm]
  · rw [hturned.outcome_execute fun d hd => (hq d hd).and (hp d hd) at?', List.filter_filter]
    exact congrArg Except.ok (List.filter_congr fun d _ => Expr.selects_and at?')

/-- The first document is at fault under the first condition, the second
and the last one under the second; on the last one, AND does not get as
far as that. -/
theorem execute_and_at_fault :
    let older : Expr := .binary (.compare .gt) (.property "c.age" ["age"] none)
      (.constant (some (.int 40)) none) none
    let active : Expr := .unary .not (.property "c.retired" ["retired"] none) none
    let query (condition : Expr) : Query := ⟨"", .everything, "c", none, some condition, [], none⟩
    let fifty (retired : Json) : Json := .obj [("age", .int 50), ("retired", retired)]
    let documents : List Json := [.obj [("age", .str "fifty"), ("retired", .bool false)],
      fifty (.int 0), fifty (.bool false), .obj [("age", .int 30), ("retired", .int 0)]]
    ((query older).execute .standard false documents).outcome =
        .ok [fifty (.int 0), fifty (.bool false)] ∧
      ((query active).execute .standard false [fifty (.int 0), fifty (.bool false)]).outcome =
        .ok [fifty (.bool false)] ∧
      ((query (.binary .and older active none)).execute .standard false documents).outcome =
        .ok [fifty (.bool false)] ∧
      ((query (.binary .and active older none)).execute .standard false documents).outcome =
        .ok [fifty (.bool false)] := by
  intro older active query fifty documents
  have hfilters : ∀ condition, (query condition).Filters condition :=
    fun _ => ⟨rfl, rfl, rfl, rfl⟩
  have holder : ∀ d ∈ documents, older.Forgiven .standard d := by
    simp only [documents, List.forall_mem_cons]
    exact ⟨rfl, trivial, trivial, trivial, List.forall_mem_nil _⟩
  have hactive : ∀ d ∈ documents, active.Forgiven .standard d := by
    simp only [documents, List.forall_mem_cons]
    exact ⟨trivial, rfl, trivial, rfl, List.forall_mem_nil _⟩
  have hkept : ((query older).execute .standard false documents).outcome =
      .ok [fifty (.int 0), fifty (.bool false)] := rfl
  have hresults : ((query active).execute .standard false
      [fifty (.int 0), fifty (.bool false)]).outcome = .ok [fifty (.bool false)] := rfl
  obtain ⟨kept, results, hfirst, hsecond, hboth, hturned⟩ := execute_and (hfilters older)
    (hfilters active) (hfilters (.binary .and older active none))
    (hfilters (.binary .and active older none)) holder hactive
  obtain rfl := Except.ok.inj (hkept.symm.trans hfirst)
  obtain rfl := Except.ok.inj (hresults.symm.trans hsecond)
  exact ⟨hkept, hresults, hboth, hturned⟩

end DocStore
