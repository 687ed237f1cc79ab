import DocStore.Proofs.Json.Showable
import DocStore.Proofs.Query.Decidable
import DocStore.Proofs.Query.Execution
import DocStore.Proofs.Query.Runnable
import DocStore.Proofs.Sorting.Permutation
import Mathlib.Control.Monad.Basic

/-!
# What ends a lenient query

A lenient query passes over the documents whose operands a comparison or
a negation does not take. What was parsed with the built-in functions
can then end in two errors alone (`endsIn_execute`): an integer beyond
the doubles meets a double, in the condition or among the sort keys, or
the text is needed of a value that cannot be shown. On documents where
neither can be (`Query.Commensurable`, `Query.Showable`) a query has a
result (`execute_lenient`).

For the filter, the values that evaluation comes by are traced to the
document and the constants of the condition (`Traced`): no step makes new
numbers. For the order, an error of the sort is that of a comparison of
two documents (`compares_sort`).
-/

namespace DocStore

/-! ## Built-in functions -/

/-- One of the values cannot be shown. -/
def UnshowableWithin (sources : List Value) : Prop :=
  ∃ v : Json, some v ∈ sources ∧ ¬ v.isShowable = true

/-- The text of a value is there, or the value is part of one that cannot
be shown. -/
theorem endsIn_searchText {sources : List Value} {v w : Json} (hv : v.Inside w)
    (hw : some w ∈ sources) :
    EndsIn v.searchText (fun _ => True) fun e => e = .unshowable ∧ UnshowableWithin sources := by
  unfold Json.searchText Json.shownText
  split
  · exact trivial
  · rename_i hshown
    exact ⟨rfl, w, hw, fun hw => hshown (hv.isShowable hw)⟩

theorem Value.eq_some_of_present? {v : Value} {w : Json} (h : v.present? = some w) :
    v = some w := by
  unfold present? at h
  split at h
  · cases h
  · cases h
  · exact h

theorem endsIn_searchText_of_present? {sources : List Value} {v : Value} {w : Json}
    (h : v.present? = some w) (hv : v ∈ sources) :
    EndsIn w.searchText (fun _ => True) fun e => e = .unshowable ∧ UnshowableWithin sources :=
  endsIn_searchText .self (Value.eq_some_of_present? h ▸ hv)

section Tests

variable (v w : Value)

theorem endsIn_containsText :
    EndsIn (containsText v w) (fun _ => True)
      fun e => e = .unshowable ∧ UnshowableWithin [v, w] := by
  unfold containsText
  split
  · rename_i hv hw
    exact (endsIn_searchText_of_present? hw (by simp)).bind fun _ _ =>
      (endsIn_searchText_of_present? hv (by simp)).bind fun _ _ => trivial
  · exact trivial

theorem endsIn_startsWithText :
    EndsIn (startsWithText v w) (fun _ => True)
      fun e => e = .unshowable ∧ UnshowableWithin [v, w] := by
  unfold startsWithText
  split
  · rename_i hv hw
    exact (endsIn_searchText_of_present? hv (by simp)).bind fun _ _ =>
      (endsIn_searchText_of_present? hw (by simp)).bind fun _ _ => trivial
  · exact trivial

theorem endsIn_arrayContains :
    EndsIn (arrayContains v w) (fun _ => True)
      fun e => e = .unshowable ∧ UnshowableWithin [v, w] := by
  unfold arrayContains
  split
  · rename_i vs w' hw
    refine (endsIn_searchText_of_present? hw (by simp)).bind fun _ _ => EndsIn.anyM fun u hu => ?_
    have hinside : u.Inside (.arr vs) := Json.Inside.self.element hu
    exact (endsIn_searchText hinside (by simp)).bind fun _ _ => trivial
  · exact trivial

end Tests

/-- Built-in functions answer with a truth value, unless one of their
arguments cannot be shown. -/
theorem endsIn_run_standard {name : String} {f : QueryFunction} {vs : List Value}
    (h : Registry.standard.lookup name = some f) (harity : f.arity = vs.length) :
    EndsIn (f.run vs) (fun v => ∃ b, v = some (.bool b))
      fun e => e = .unshowable ∧ UnshowableWithin vs := by
  have hone : ∀ test : Value → Bool, f = .ofTest (fun v => .ok (test v)) →
      EndsIn (f.run vs) (fun v => ∃ b, v = some (.bool b))
        fun e => e = .unshowable ∧ UnshowableWithin vs := by
    rintro test rfl
    have hlength : vs.length = 1 := Int.ofNat_inj.mp harity.symm
    obtain ⟨v, rfl⟩ := List.length_eq_one_iff.mp hlength
    exact ⟨_, rfl⟩
  have htwo : ∀ test : Value → Value → Except CallError Bool,
      (∀ v w, EndsIn (test v w) (fun _ => True)
        fun e => e = .unshowable ∧ UnshowableWithin [v, w]) → f = .ofTest₂ test →
      EndsIn (f.run vs) (fun v => ∃ b, v = some (.bool b))
        fun e => e = .unshowable ∧ UnshowableWithin vs := by
    rintro test htest rfl
    have hlength : vs.length = 2 := Int.ofNat_inj.mp harity.symm
    obtain ⟨v, w, rfl⟩ := List.length_eq_two.mp hlength
    exact (htest v w).map fun b _ => ⟨b, rfl⟩
  have hmem := Table.mem_of_get? h
  simp only [Registry.standard, Registry.builtins, List.mem_cons, Prod.mk.injEq, List.not_mem_nil,
    or_false] at hmem
  rcases hmem with ⟨-, h⟩ | ⟨-, h⟩ | ⟨-, h⟩ | ⟨-, h⟩ | ⟨-, h⟩
  · exact htwo _ endsIn_containsText h
  · exact htwo _ endsIn_startsWithText h
  · exact htwo _ endsIn_arrayContains h
  · exact hone _ h
  · exact hone _ h

/-! ## Filter -/

/-- The numbers inside the value are inside one of the sources. -/
def Traced (sources : List Value) (v : Value) : Prop :=
  ∀ w, v = some w → ∀ n : Json, n.kind = .number → n.Inside w →
    ∃ u, some u ∈ sources ∧ n.Inside u

/-- Two of the sources clash. -/
def ClashesWithin (sources : List Value) : Prop :=
  ∃ v w, some v ∈ sources ∧ some w ∈ sources ∧ Clashes v w

section Traced

variable {sources : List Value} {v w : Json}

theorem traced_of_mem {v : Value} (h : v ∈ sources) : Traced sources v := by
  rintro w rfl n - hn
  exact ⟨w, h, hn⟩

theorem traced_truth (t : Truth) : Traced sources t.toValue := by
  intro w hw n hkind hn
  obtain ⟨b, -, rfl⟩ := Option.map_eq_some_iff.mp hw
  cases hn
  cases hkind

theorem Traced.inside (h : Traced sources (some v)) (hw : w.Inside v) :
    Traced sources (some w) := by
  rintro _ ⟨⟩ n hkind hn
  exact h v rfl n hkind (hn.trans hw)

theorem kind_of_overflows (h : Overflows (some v) (some w)) :
    v.kind = .number ∧ w.kind = .number := by
  match v, w, h with
  | .int _, .float _, _ => exact ⟨rfl, rfl⟩
  | .float _, .int _, _ => exact ⟨rfl, rfl⟩

/-- Values clash only if their sources do. -/
theorem ClashesWithin.of_traced (hv : Traced sources (some v)) (hw : Traced sources (some w))
    (h : Clashes v w) : ClashesWithin sources := by
  obtain ⟨a, b, ha, hb, hover⟩ := h
  obtain ⟨hkind, hkind'⟩ := kind_of_overflows hover
  obtain ⟨u, hu, hau⟩ := hv v rfl a hkind ha
  obtain ⟨u', hu', hbu⟩ := hw w rfl b hkind' hb
  exact ⟨u, u', hu, hu', a, b, hau, hbu, hover⟩

/-- A value that cannot be shown has its long integer from a source. -/
theorem UnshowableWithin.of_traced {vs : List Value} (h : UnshowableWithin vs)
    (hvs : ∀ v ∈ vs, Traced sources v) : UnshowableWithin sources := by
  obtain ⟨v, hv, hshown⟩ := h
  obtain ⟨n, hn, hlong⟩ := Json.exists_inside_of_not_isShowable hshown
  obtain ⟨u, hu, hnu⟩ := hvs (some v) hv v rfl (.int n) rfl hn
  exact ⟨u, hu, fun hshown => hlong (hnu.isShowable hshown)⟩

/-- Two of the sources clash, or one of them cannot be shown. -/
def StopsOver (sources : List Value) (e : EvalError) : Prop :=
  (e = .overflow .integerTooLarge ∧ ClashesWithin sources) ∨
    (e = .call .unshowable ∧ UnshowableWithin sources)

theorem StopsOver.isDocumentLevel_eq_false {e : EvalError} (h : StopsOver sources e) :
    e.isDocumentLevel = false := by
  rcases h with ⟨rfl, -⟩ | ⟨rfl, -⟩
  · rfl
  · rfl

/-- A document is at fault, or the sources are. -/
def FailsOver (sources : List Value) (e : EvalError) : Prop :=
  e.isDocumentLevel = true ∨ StopsOver sources e

end Traced

theorem evalInvariant_traced (document : Json) (constants : List Value) :
    EvalInvariant .standard document (Traced (some document :: constants))
      (FailsOver (some document :: constants)) where
  property segments := by
    cases h : document.resolve segments with
    | none => exact traced_truth none
    | some v =>
        have hdocument : Traced (some document :: constants) (some document) :=
          traced_of_mem (List.mem_cons_self ..)
        exact hdocument.inside (Json.inside_of_resolve h)
  truth := traced_truth
  negate at? v _ := by
    refine (endsIn_negate at? v).mono ?_ ?_
    · rintro _ ⟨t, rfl⟩
      exact traced_truth t
    · rintro _ ⟨kind, rfl⟩
      exact .inl rfl
  compare c at? v w hv hw := by
    match v, w with
    | some v, some w =>
        refine EndsIn.map ((endsIn_evalDefined c at? v w).mono (fun _ h => h) ?_)
          fun b _ => traced_truth (some b)
        rintro _ (⟨cause, rfl, hclash⟩ | ⟨left, right, rfl⟩)
        · exact .inr (.inl ⟨by cases cause; rfl, .of_traced hv hw hclash⟩)
        · exact .inl rfl
    | none, _ => exact traced_truth none
    | some _, none => exact traced_truth none
  run name f vs hf harity hvs := by
    refine ((endsIn_run_standard hf harity).mono ?_ fun _ h => h).mapError ?_
    · rintro _ ⟨b, rfl⟩
      exact traced_truth (some b)
    · rintro _ ⟨rfl, hshown⟩
      exact .inr (.inr ⟨rfl, hshown.of_traced hvs⟩)

/-- The condition is evaluated on the document and counts as true. -/
def Expr.selects (r : Registry) (condition : Expr) (document : Json) : Bool :=
  match (condition.holds r document).outcome with
  | .ok matched => matched
  | .error _ => false

/-- The filter of a lenient query looks at each document for itself. It
ends only over a document that clashes with itself or with the constants
of the condition, or where one of these cannot be shown. -/
theorem endsIn_filterDocuments {condition : Expr} (h : condition.Callable .standard)
    (documents : List Json) :
    EndsIn (filterDocuments .standard false condition documents).outcome
      (fun kept => kept = documents.filter (condition.selects .standard))
      fun e => ∃ document ∈ documents, StopsOver (some document :: condition.constants) e := by
  induction documents with
  | nil => exact rfl
  | cons document rest ih =>
      have ih := ih.mono (fun _ h => h) fun e ⟨d, hd, hstops⟩ =>
        show ∃ d ∈ document :: rest, StopsOver (some d :: condition.constants) e from
          ⟨d, List.mem_cons_of_mem document hd, hstops⟩
      have heval := (evalInvariant_traced document condition.constants).endsIn_eval condition
        (fun v hv => traced_of_mem (List.mem_cons_of_mem _ hv)) h
      have hholds : EndsIn (condition.holds .standard document).outcome (fun _ => True)
          (FailsOver (some document :: condition.constants)) := by
        rw [Expr.holds, Run.outcome_bind]
        exact heval.bind fun _ _ => trivial
      cases hrun : condition.holds .standard document with | mk ns o =>
      have hselects : condition.selects .standard document = o.toOption.getD false := by
        rw [Expr.selects, hrun]
        cases o <;> rfl
      rw [hrun] at hholds
      cases o with
      | ok matched =>
          rw [filterDocuments_of_decided false hrun]
          refine ih.map fun kept hkept => ?_
          rw [List.filter_cons, hselects, hkept]
          rfl
      | error e =>
          rcases hholds with hlevel | hstops
          · rw [filterDocuments_of_fault hrun hlevel, List.filter_cons, hselects]
            exact ih
          · rw [filterDocuments_of_failure false hrun hstops.isDocumentLevel_eq_false]
            exact ⟨document, List.mem_cons_self .., hstops⟩

/-! ## Order -/

/-- The documents have values under a sort key that overflow. -/
def OverflowsUnder (keys : List SortKey) (documents : List Json) : Prop :=
  ∃ key ∈ keys, ∃ a ∈ documents, ∃ b ∈ documents,
    Overflows (a.resolve key.segments) (b.resolve key.segments)

theorem endsIn_compareUnder (direction : SortDirection) (v w : Value) :
    EndsIn (compareUnder direction v w) (fun _ => True) fun _ => Overflows v w := by
  unfold compareUnder
  split
  · exact trivial
  · exact trivial
  · exact trivial
  · cases direction with
    | ascending => exact endsIn_compareForSort v w
    | descending => exact (endsIn_compareForSort v w).map fun _ h => h

theorem endsIn_compareDocuments (keys : List SortKey) (a b : Json) :
    EndsIn (compareDocuments keys a b) (fun _ => True) fun _ =>
      ∃ key ∈ keys, Overflows (a.resolve key.segments) (b.resolve key.segments) := by
  induction keys with
  | nil => exact trivial
  | cons key rest ih =>
      rw [compareDocuments]
      refine ((endsIn_compareUnder key.direction _ _).mono (fun _ h => h) fun _ h =>
        ⟨key, List.mem_cons_self .., h⟩).bind fun o _ => ?_
      cases o with
      | eq =>
          refine ih.mono (fun _ h => h) ?_
          rintro _ ⟨k, hk, h⟩
          exact ⟨k, List.mem_cons_of_mem key hk, h⟩
      | lt => exact trivial
      | gt => exact trivial

/-- Documents are put in order, or two of them overflow. -/
theorem endsIn_orderDocuments (keys : List SortKey) (documents : List Json) :
    EndsIn (orderDocuments keys documents) (fun ordered => ordered.Perm documents)
      fun _ => OverflowsUnder keys documents := by
  unfold orderDocuments
  split
  · exact List.Perm.refl _
  · refine EndsIn.mono (Sorting.compares_sort _ documents) (fun _ h => h) ?_
    rintro e ⟨a, ha, b, hb, he⟩
    have hless : EndsIn (do return (← compareDocuments keys a b) == .lt) (fun _ => True) _ :=
      (endsIn_compareDocuments keys a b).bind fun _ _ => trivial
    obtain ⟨key, hkey, h⟩ := hless.of_error he
    exact ⟨key, hkey, a, ha, b, hb, h⟩

/-! ## Queries -/

/-- No integer beyond the doubles meets a double: neither in a document
and the constants of the condition, nor among the values of a sort
key. -/
structure Query.Commensurable (q : Query) (documents : List Json) : Prop where
  condition : ∀ e, q.where? = some e → ∀ document ∈ documents,
    ¬ ClashesWithin (some document :: e.constants)
  order : ¬ OverflowsUnder q.orderBy documents

/-- The documents can be shown, and so can the constants of the
condition. -/
def Query.Showable (q : Query) (documents : List Json) : Prop :=
  ∀ e, q.where? = some e → ∀ document ∈ documents,
    ¬ UnshowableWithin (some document :: e.constants)

theorem OverflowsUnder.mono {keys : List SortKey} {documents others : List Json}
    (h : OverflowsUnder keys documents) (hsub : documents ⊆ others) :
    OverflowsUnder keys others := by
  obtain ⟨key, hkey, a, ha, b, hb, hover⟩ := h
  exact ⟨key, hkey, a, hsub ha, b, hsub hb, hover⟩

/-- The constants of the condition pass a test. -/
def Query.constantsPass (q : Query) (test : Json → Bool) : Bool :=
  q.where?.all fun e => e.constants.all (·.all test)

section Tests

variable {q : Query} {test : Json → Bool} {documents : List Json}

theorem Query.pass_of_mem (hq : q.constantsPass test = true)
    (hdocuments : documents.all test = true) {e : Expr} (he : q.where? = some e) {document v : Json}
    (hdocument : document ∈ documents) (hv : some v ∈ some document :: e.constants) :
    test v = true := by
  rcases List.mem_cons.mp hv with hv | hv
  · exact Option.some.inj hv ▸ List.all_eq_true.mp hdocuments document hdocument
  · rw [constantsPass, he] at hq
    exact List.all_eq_true.mp hq (some v) hv

theorem Query.showable_of_isShowable (hq : q.constantsPass Json.isShowable = true)
    (hdocuments : documents.all Json.isShowable = true) : q.Showable documents := by
  rintro e he document hdocument ⟨v, hv, hshown⟩
  exact hshown (pass_of_mem hq hdocuments he hdocument hv)

/-- Integers in the range of doubles can be compared with any double. -/
theorem Query.commensurable_of_fits (hq : q.constantsPass Json.fits = true)
    (hdocuments : documents.all Json.fits = true) : q.Commensurable documents where
  condition e he document hdocument := by
    rintro ⟨v, w, hv, hw, hclash⟩
    exact not_clashes_of_inRange
      (Json.inRange_of_fits (pass_of_mem hq hdocuments he hdocument hv))
      (Json.inRange_of_fits (pass_of_mem hq hdocuments he hdocument hw)) hclash
  order := by
    rintro ⟨key, -, a, ha, b, hb, hover⟩
    cases hv : a.resolve key.segments with
    | none =>
        rw [hv] at hover
        cases hover
    | some v =>
        cases hw : b.resolve key.segments with
        | none =>
            rw [hv, hw] at hover
            cases v <;> cases hover
        | some w =>
            rw [hv, hw] at hover
            refine not_clashes_of_inRange
              (Json.inRange_of_fits (List.all_eq_true.mp hdocuments a ha))
              (Json.inRange_of_fits (List.all_eq_true.mp hdocuments b hb)) ?_
            exact (clashes_of_overflows hover).inside (Json.inside_of_resolve hv)
              (Json.inside_of_resolve hw)

end Tests

section Lenient

variable {q : Query} {documents : List Json}

/-- The documents that a lenient query keeps. -/
def Query.selects (r : Registry) (q : Query) (document : Json) : Bool :=
  q.where?.all fun condition => condition.selects r document

/-- An integer was too large to become a double. -/
def ExecutionError.IsOverflow (e : ExecutionError) : Prop :=
  e = .evaluation (.overflow .integerTooLarge) ∨ e = .ordering .integerTooLarge

/-- What can end a lenient query on the documents. -/
def Query.MayEndIn (q : Query) (documents : List Json) (e : ExecutionError) : Prop :=
  (e.IsOverflow ∧ ¬ q.Commensurable documents) ∨
    (e = .evaluation (.call .unshowable) ∧ ¬ q.Showable documents)

theorem Query.not_mayEndIn (hcommensurable : q.Commensurable documents)
    (hshowable : q.Showable documents) (e : ExecutionError) : ¬ q.MayEndIn documents e := by
  rintro (⟨-, hnot⟩ | ⟨-, hnot⟩)
  · exact hnot hcommensurable
  · exact hnot hshowable

theorem endsIn_kept (h : q.Runnable .standard) (documents : List Json) :
    EndsIn (q.kept .standard false documents)
      (fun kept => kept = documents.filter (q.selects .standard))
      fun e => q.MayEndIn documents (.evaluation e) := by
  unfold Query.kept
  split
  · rename_i hwhere
    exact (List.filter_eq_self.mpr fun _ _ => by simp [Query.selects, hwhere]).symm
  · rename_i condition hwhere
    have hselects : q.selects .standard = condition.selects .standard :=
      funext fun document => by simp [Query.selects, hwhere]
    rw [hselects]
    refine (endsIn_filterDocuments (h.condition condition hwhere) documents).mono
      (fun _ h => h) ?_
    rintro e ⟨document, hdocument, ⟨rfl, hclash⟩ | ⟨rfl, hshown⟩⟩
    · exact .inl ⟨.inl rfl, fun h => h.condition condition hwhere document hdocument hclash⟩
    · exact .inr ⟨rfl, fun h => h condition hwhere document hdocument hshown⟩

/-- A lenient query ends in nothing else. -/
theorem endsIn_execute (h : q.Runnable .standard) (documents : List Json) :
    EndsIn (q.execute .standard false documents).outcome (fun _ => True)
      (q.MayEndIn documents) := by
  rw [outcome_execute]
  refine ((endsIn_kept h documents).mapError fun e he => he).bind fun kept hkept => ?_
  have hsub : kept ⊆ documents := hkept ▸ List.filter_sublist.subset
  have horder : EndsIn ((orderDocuments q.orderBy kept).mapError ExecutionError.ordering)
      (fun _ => True) (q.MayEndIn documents) :=
    ((endsIn_orderDocuments q.orderBy kept).mono (fun _ _ => trivial) fun _ he => he).mapError
      fun e hover => .inl ⟨.inr (by cases e; rfl), fun h => h.order (hover.mono hsub)⟩
  exact horder.bind fun ordered _ => (endsIn_projectDocuments h.output _).mapError fun _ he => he

end Lenient

/-- **One document does not end a lenient query**, unless an integer
beyond the doubles meets a double or the text is needed of a value that
cannot be shown: a query that is parsed with the built-in functions has a
result on all documents where neither can be, and ends in one of these two
errors otherwise, if it ends. Its filter then keeps the documents that the
query selects, each for itself, so that a document whose evaluation fails
is left out and changes nothing for the others; and the documents kept of
two lists in a row are those kept of each. -/
theorem execute_lenient {text : String} {given : Json} {q : Query}
    (hq : Query.parse .standard text given = .ok q) (documents : List Json) :
    ((∃ results, (q.execute .standard false documents).outcome = .ok results) ∨
        ∃ e, (q.execute .standard false documents).outcome = .error e ∧
          ((e.IsOverflow ∧ ¬ q.Commensurable documents) ∨
            (e = .evaluation (.call .unshowable) ∧ ¬ q.Showable documents))) ∧
      (q.Commensurable documents → q.Showable documents →
        q.kept .standard false documents = .ok (documents.filter (q.selects .standard))) ∧
      ∀ more, q.kept .standard false (documents ++ more) = (do
        let kept ← q.kept .standard false documents
        let others ← q.kept .standard false more
        return kept ++ others) := by
  have hrunnable := runnable_of_parse hq
  refine ⟨?_, fun hcommensurable hshowable => ?_, q.kept_append .standard false documents⟩
  · have hends := endsIn_execute hrunnable documents
    cases hout : (q.execute .standard false documents).outcome with
    | ok results => exact .inl ⟨results, rfl⟩
    | error e => exact .inr ⟨e, rfl, hends.of_error hout⟩
  · obtain ⟨kept, hkept, rfl⟩ := (endsIn_kept hrunnable documents).exists_ok
      fun e => Query.not_mayEndIn hcommensurable hshowable (.evaluation e)
    exact hkept

/-- A text in the place of a number does not end the query. -/
theorem execute_lenient_text_for_number :
    ∃ q results, Query.parse .standard "SELECT * FROM c WHERE c.age > 40" .null = .ok q ∧
      (q.execute .standard false
        [.obj [("id", .str "1"), ("age", .int 50)],
          .obj [("id", .str "2"), ("age", .str "thirty")]]).outcome = .ok results := by
  obtain ⟨q, hq, hconstants⟩ : ∃ q, Query.parse .standard "SELECT * FROM c WHERE c.age > 40" .null =
      .ok q ∧ (q.constantsPass Json.fits && q.constantsPass Json.isShowable) = true :=
    exists_ok_of_any (by decide +kernel)
  obtain ⟨hfits, hshowable⟩ := Bool.and_eq_true_iff.mp hconstants
  rcases (execute_lenient hq _).1 with ⟨results, hresults⟩ | ⟨e, -, ⟨-, hnot⟩ | ⟨-, hnot⟩⟩
  · exact ⟨q, results, hq, hresults⟩
  · exact absurd (Query.commensurable_of_fits hfits (by decide +kernel)) hnot
  · exact absurd (Query.showable_of_isShowable hshowable (by decide +kernel)) hnot

/-- An integer beyond the doubles is compared with a double, and ends a
lenient query. -/
theorem execute_lenient_overflow :
    ∃ q, Query.parse .standard "SELECT * FROM c WHERE c.a < 1.5" .null = .ok q ∧
      (q.execute .standard false
        [.obj [("id", .str "1"), ("a", .int (10 ^ 309))],
          .obj [("id", .str "2"), ("a", .int 1)]]).outcome =
        .error (.evaluation (.overflow .integerTooLarge)) := by
  obtain ⟨q, hq, herror⟩ : ∃ q, Query.parse .standard "SELECT * FROM c WHERE c.a < 1.5" .null =
      .ok q ∧ decide ((q.execute .standard false
        [.obj [("id", .str "1"), ("a", .int (10 ^ 309))],
          .obj [("id", .str "2"), ("a", .int 1)]]).outcome =
        .error (.evaluation (.overflow .integerTooLarge))) = true :=
    exists_ok_of_any (by decide +kernel)
  exact ⟨q, hq, of_decide_eq_true herror⟩

end DocStore
