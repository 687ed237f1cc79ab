import DocStore.Proofs.Query.Lenient

/-!
# The protocol of a page request

What an observer is told, in which order, over every way a page request
can go. The filter sends the comparisons of each document and then one
predicate (`FilterTrace`). Around it stand the notices of parsing and of
the four stages, each of which takes over the count of the one before
(`QueryTrace`), and one notice of the page ends a request that is
answered (`PageTrace`). A request that ends early has sent what comes
before its end and nothing else; behind the filter only the order can
end it, since a parsed query has a projection for every document.

The traces are grammars of notices; that every request keeps to them is
`servePage_trace`.
-/

namespace DocStore

namespace Notice

def isComparison : Notice → Bool
  | comparison .. => true
  | _ => false

/-- A document is reported for which the condition holds. -/
def isMatch : Notice → Bool
  | predicate _ matched _ => matched
  | _ => false

end Notice

/-! ## Traces -/

/-- The notices of a filter over the documents, and the error that ends
it, if one does. -/
inductive FilterTrace (r : Registry) (strict : Bool) (condition : Expr) :
    List Json → List Notice → Option EvalError → Prop where
  | done : FilterTrace r strict condition [] [] none
  | decided {document : Json} {rest : List Json} {comparisons ns : List Notice} {matched : Bool}
      {ending : Option EvalError} (hcomparisons : ∀ n ∈ comparisons, n.isComparison = true)
      (hholds : condition.holds r document = ⟨comparisons, .ok matched⟩)
      (hrest : FilterTrace r strict condition rest ns ending) :
      FilterTrace r strict condition (document :: rest)
        (comparisons ++ .predicate document matched none :: ns) ending
  | passedOver {document : Json} {rest : List Json} {comparisons ns : List Notice}
      {e : EvalError} {ending : Option EvalError} (hlenient : strict = false)
      (hcomparisons : ∀ n ∈ comparisons, n.isComparison = true)
      (hholds : condition.holds r document = ⟨comparisons, .error e⟩)
      (he : e.isDocumentLevel = true) (hrest : FilterTrace r strict condition rest ns ending) :
      FilterTrace r strict condition (document :: rest)
        (comparisons ++ .predicate document false (some e) :: ns) ending
  | ended {document : Json} {rest : List Json} {comparisons : List Notice} {e : EvalError}
      (hstrict : strict = true) (hcomparisons : ∀ n ∈ comparisons, n.isComparison = true)
      (hholds : condition.holds r document = ⟨comparisons, .error e⟩)
      (he : e.isDocumentLevel = true) :
      FilterTrace r strict condition (document :: rest)
        (comparisons ++ [.predicate document false (some e)]) (some e)
  | interrupted {document : Json} {rest : List Json} {comparisons : List Notice} {e : EvalError}
      (hcomparisons : ∀ n ∈ comparisons, n.isComparison = true)
      (hholds : condition.holds r document = ⟨comparisons, .error e⟩)
      (he : e.isDocumentLevel = false) :
      FilterTrace r strict condition (document :: rest) comparisons (some e)

/-- The notices of the search for documents, and how many are found: all
of them without a condition, else those that are reported to match. -/
inductive SearchTrace (r : Registry) (strict : Bool) (documents : List Json) :
    Option Expr → List Notice → Except EvalError Nat → Prop where
  | all : SearchTrace r strict documents none [] (.ok documents.length)
  | filtered {condition : Expr} {ns : List Notice}
      (h : FilterTrace r strict condition documents ns none) :
      SearchTrace r strict documents (some condition) ns (.ok (ns.countP (·.isMatch)))
  | ended {condition : Expr} {ns : List Notice} {e : EvalError}
      (h : FilterTrace r strict condition documents ns (some e)) :
      SearchTrace r strict documents (some condition) ns (.error e)

/-- The number of documents that the limit leaves. -/
def limitCount (limit : Option Nat) (n : Nat) : Nat :=
  limit.elim n (min · n)

/-- The notices of parsing and executing a query text, and the number of
results. -/
inductive QueryTrace (r : Registry) (strict : Bool) (text : String) (documents : List Json)
    (parameters : Json) : List Notice → Except PageError Nat → Prop where
  | refused {e : ParseError} (h : Query.parse r text parameters = .error (.text e)) :
      QueryTrace r strict text documents parameters [.parseStart text, .parseError text e]
        (.error (.refused (.text e)))
  | badParameters {e : ParameterError}
      (h : Query.parse r text parameters = .error (.parameters e)) :
      QueryTrace r strict text documents parameters [.parseStart text]
        (.error (.refused (.parameters e)))
  | unfiltered {q : Query} {ns : List Notice} {e : EvalError}
      (h : Query.parse r text parameters = .ok q)
      (hsearch : SearchTrace r strict documents q.where? ns (.error e)) :
      QueryTrace r strict text documents parameters (.parseStart text :: .parseEnd q :: ns)
        (.error (.execution (.evaluation e)))
  | unordered {q : Query} {ns : List Notice} {found : List Json} {e : Overflow}
      (h : Query.parse r text parameters = .ok q)
      (hsearch : SearchTrace r strict documents q.where? ns (.ok found.length))
      (hfound : q.kept r strict documents = .ok found)
      (horder : orderDocuments q.orderBy found = .error e) :
      QueryTrace r strict text documents parameters
        (.parseStart text :: .parseEnd q :: (ns ++ [.stage .filter documents.length found.length]))
        (.error (.execution (.ordering e)))
  | executed {q : Query} {ns : List Notice} {n : Nat}
      (h : Query.parse r text parameters = .ok q)
      (hsearch : SearchTrace r strict documents q.where? ns (.ok n)) :
      QueryTrace r strict text documents parameters
        (.parseStart text :: .parseEnd q ::
          (ns ++ [.stage .filter documents.length n, .stage .order n n,
            .stage .limit n (limitCount q.limit n),
            .stage .project (limitCount q.limit n) (limitCount q.limit n)]))
        (.ok (limitCount q.limit n))

/-- The notices of a page request, and its answer. -/
inductive PageTrace (r : Registry) (strict : Bool) (text : String) (documents : List Json)
    (pageSize : Json) (token : Option String) (parameters : Json) :
    List Notice → Except PageError Page → Prop where
  | badSize (hsize : positiveSize? pageSize = none) :
      PageTrace r strict text documents pageSize token parameters []
        (.error (.pageSize pageSize))
  | badToken {size : Nat} {e : TokenError} (hsize : positiveSize? pageSize = some size)
      (htoken : startOffset text size token = .error e) :
      PageTrace r strict text documents pageSize token parameters [] (.error (.token e))
  | failed {size offset : Nat} {ns : List Notice} {e : PageError}
      (hsize : positiveSize? pageSize = some size)
      (htoken : startOffset text size token = .ok offset)
      (h : QueryTrace r strict text documents parameters ns (.error e)) :
      PageTrace r strict text documents pageSize token parameters ns (.error e)
  | served {size offset n : Nat} {ns : List Notice} {page : Page}
      (hsize : positiveSize? pageSize = some size)
      (htoken : startOffset text size token = .ok offset)
      (h : QueryTrace r strict text documents parameters ns (.ok n))
      (hdocuments : page.documents.length = min size (n - offset))
      (hmore : page.hasMore = decide (offset + size < n)) :
      PageTrace r strict text documents pageSize token parameters
        (ns ++ [.page offset (min size (n - offset)) (decide (offset + size < n))]) (.ok page)

/-! ## Evaluation -/

section Evaluation

variable (r : Registry) (document : Json)

mutual

/-- By recursion on the expression. -/
theorem comparisons_eval : (e : Expr) →
    ∀ n ∈ (e.eval r document).notices, n.isComparison = true
  | .constant v _ => by
      rw [Expr.eval]
      simp
  | .property _ segments _ => by
      rw [Expr.eval]
      simp
  | .unary .not e at? => by
      rw [Expr.eval]
      exact Run.forall_notices_bind (comparisons_eval e) fun _ => by simp
  | .unary (.misplaced op) _ _ => by
      rw [Expr.eval]
      intro n hn
      cases hn
  | .binary .and left right _ => by
      rw [Expr.eval]
      refine Run.forall_notices_bind (comparisons_eval left) fun v => ?_
      split
      · simp
      · exact Run.forall_notices_bind (comparisons_eval right) fun _ => by simp
  | .binary .or left right _ => by
      rw [Expr.eval]
      refine Run.forall_notices_bind (comparisons_eval left) fun v => ?_
      split
      · simp
      · exact Run.forall_notices_bind (comparisons_eval right) fun _ => by simp
  | .binary (.compare c) left right at? => by
      rw [Expr.eval]
      refine Run.forall_notices_bind (comparisons_eval left) fun v => ?_
      refine Run.forall_notices_bind (comparisons_eval right) fun w => ?_
      refine Run.forall_notices_bind (by simp) fun result => ?_
      refine Run.forall_notices_bind ?_ fun _ => by simp
      intro n hn
      obtain rfl := List.mem_singleton.mp hn
      rfl
  | .call name args at? => by
      rw [Expr.eval]
      split
      · intro n hn
        cases hn
      · split
        · exact Run.forall_notices_bind (comparisons_evalArgs args) fun _ => by simp
        · intro n hn
          cases hn

theorem comparisons_evalArgs : (args : List Expr) →
    ∀ n ∈ (Expr.evalArgs r document args).notices, n.isComparison = true
  | [] => by
      rw [Expr.evalArgs]
      simp
  | e :: es => by
      rw [Expr.evalArgs]
      refine Run.forall_notices_bind (comparisons_eval e) fun v => ?_
      exact Run.forall_notices_bind (comparisons_evalArgs es) fun _ => by simp

end

theorem comparisons_holds {condition : Expr} {ns : List Notice} {o : Except EvalError Bool}
    (h : condition.holds r document = ⟨ns, o⟩) : ∀ n ∈ ns, n.isComparison = true := by
  have hns : (condition.eval r document).notices = ns := by
    rw [Expr.holds, Run.bind_pure_eq] at h
    exact congrArg Run.notices h
  rw [← hns]
  exact comparisons_eval r document condition

end Evaluation

/-! ## Filter -/

theorem isMatch_of_isComparison {n : Notice} (h : n.isComparison = true) : n.isMatch = false := by
  cases n <;> first | rfl | cases h

theorem countP_isMatch_append {comparisons : List Notice}
    (h : ∀ n ∈ comparisons, n.isComparison = true) (ns : List Notice) :
    (comparisons ++ ns).countP (·.isMatch) = ns.countP (·.isMatch) := by
  have hzero : comparisons.countP (·.isMatch) = 0 := by
    rw [List.countP_eq_zero]
    intro n hn
    simp [isMatch_of_isComparison (h n hn)]
  rw [List.countP_append, hzero, Nat.zero_add]

/-- The filter keeps to its trace, and keeps as many documents as it
reports to match. -/
theorem filterDocuments_trace (r : Registry) (strict : Bool) (condition : Expr)
    (documents : List Json) :
    EndsIn (filterDocuments r strict condition documents).outcome
      (fun kept =>
        FilterTrace r strict condition documents
            (filterDocuments r strict condition documents).notices none ∧
          kept.length =
            (filterDocuments r strict condition documents).notices.countP (·.isMatch))
      fun e => FilterTrace r strict condition documents
        (filterDocuments r strict condition documents).notices (some e) := by
  induction documents with
  | nil => exact ⟨.done, rfl⟩
  | cons document rest ih =>
      cases hholds : condition.holds r document with | mk comparisons o =>
      have hcomparisons := comparisons_holds r document hholds
      cases o with
      | ok matched =>
          rw [filterDocuments_of_decided strict hholds]
          refine EndsIn.map (ih.mono (fun kept h => h) fun e h => ?_) ?_
          · exact .decided hcomparisons hholds h
          · rintro kept ⟨htrace, hlength⟩
            refine ⟨.decided hcomparisons hholds htrace, ?_⟩
            rw [countP_isMatch_append hcomparisons, List.countP_cons, ← hlength]
            cases matched <;> rfl
      | error e =>
          cases he : e.isDocumentLevel with
          | false =>
              rw [filterDocuments_of_failure strict hholds he]
              exact .interrupted hcomparisons hholds he
          | true =>
              cases strict with
              | true =>
                  rw [filterDocuments_strict_of_fault hholds he]
                  exact .ended rfl hcomparisons hholds he
              | false =>
                  rw [filterDocuments_of_fault hholds he]
                  refine ih.mono ?_ fun e' h => .passedOver rfl hcomparisons hholds he h
                  rintro kept ⟨htrace, hlength⟩
                  refine ⟨.passedOver rfl hcomparisons hholds he htrace, ?_⟩
                  rw [countP_isMatch_append hcomparisons, List.countP_cons, ← hlength]
                  rfl

theorem search_trace (r : Registry) (strict : Bool) (q : Query) (documents : List Json) :
    SearchTrace r strict documents q.where? (q.search r strict documents).notices
      ((q.search r strict documents).outcome.map List.length) := by
  unfold Query.search
  cases q.where? with
  | none => exact .all
  | some condition =>
      have htrace := filterDocuments_trace r strict condition documents
      dsimp only
      cases hout : (filterDocuments r strict condition documents).outcome with
      | error e => exact .ended (htrace.of_error hout)
      | ok kept =>
          obtain ⟨htrace, hlength⟩ := htrace.of_ok hout
          rw [map_ok, hlength]
          exact .filtered htrace

/-! ## The stages behind the filter -/

theorem length_orderDocuments {keys : List SortKey} {documents ordered : List Json}
    (h : orderDocuments keys documents = .ok ordered) : ordered.length = documents.length :=
  ((endsIn_orderDocuments keys documents).of_ok h).length_eq

theorem length_limitDocuments (limit : Option Nat) (documents : List Json) :
    (limitDocuments limit documents).length = limitCount limit documents.length := by
  cases limit with
  | none => rfl
  | some n => exact List.length_take

theorem length_projectDocuments {projection : Projection} {documents results : List Json}
    (h : projectDocuments projection documents = .ok results) :
    results.length = documents.length := by
  cases projection with
  | everything => rw [Except.ok.inj h]
  | items items =>
      rw [projectDocuments] at h
      induction documents generalizing results with
      | nil =>
          obtain rfl := Except.ok.inj h
          rfl
      | cons document rest ih =>
          rw [List.mapM_cons, bind_eq_ok_iff] at h
          obtain ⟨result, -, h⟩ := h
          obtain ⟨others, hothers, h⟩ := bind_eq_ok_iff.mp h
          obtain rfl := Except.ok.inj h
          rw [List.length_cons, List.length_cons, ih hothers]

/-- Behind the filter a parsed query ends in the order, or has
results. -/
theorem finish_cases {r : Registry} {q : Query} (h : q.Runnable r) (total : Nat)
    (found : List Json) :
    (∃ e, orderDocuments q.orderBy found = .error e ∧
        q.finish total found = ⟨[.stage .filter total found.length], .error (.ordering e)⟩) ∨
      ∃ results, results.length = limitCount q.limit found.length ∧
        q.finish total found =
          ⟨[.stage .filter total found.length, .stage .order found.length found.length,
              .stage .limit found.length (limitCount q.limit found.length),
              .stage .project (limitCount q.limit found.length)
                (limitCount q.limit found.length)],
            .ok results⟩ := by
  cases hordered : orderDocuments q.orderBy found with
  | error e =>
      refine .inl ⟨e, rfl, ?_⟩
      rw [Query.finish, hordered]
      rfl
  | ok ordered =>
      have hlength := length_orderDocuments hordered
      have hlimited := length_limitDocuments q.limit ordered
      rw [hlength] at hlimited
      have hprojects : EndsIn (projectDocuments q.projection (limitDocuments q.limit ordered))
          (fun _ => True) fun _ => False := endsIn_projectDocuments h.output _
      obtain ⟨results, hprojected, -⟩ := hprojects.exists_ok fun _ hfalse => hfalse
      have hresults := length_projectDocuments hprojected
      rw [hlimited] at hresults
      refine .inr ⟨results, hresults, ?_⟩
      rw [Query.finish, hordered]
      simp only [Run.mapError_ofExcept, mapError_ok, Run.ofExcept_ok_bind, hprojected]
      rw [hlength, hlimited, hresults]
      rfl

/-! ## Requests -/

section Request

variable (r : Registry) (strict : Bool) {text : String} (documents : List Json)
  {parameters : Json}

theorem runQuery_of_refused {e : ParseError}
    (h : Query.parse r text parameters = .error (.text e)) :
    runQuery r strict text parameters documents =
      ⟨[.parseStart text, .parseError text e], .error (.refused (.text e))⟩ := by
  unfold runQuery parseNoticed
  rw [h]
  rfl

theorem runQuery_of_badParameters {e : ParameterError}
    (h : Query.parse r text parameters = .error (.parameters e)) :
    runQuery r strict text parameters documents =
      ⟨[.parseStart text], .error (.refused (.parameters e))⟩ := by
  unfold runQuery parseNoticed
  rw [h]
  rfl

theorem runQuery_of_parsed {q : Query} (h : Query.parse r text parameters = .ok q) :
    runQuery r strict text parameters documents =
      ⟨.parseStart text :: .parseEnd q :: (q.execute r strict documents).notices,
        (q.execute r strict documents).outcome.mapError .execution⟩ := by
  unfold runQuery parseNoticed
  rw [h]
  rfl

theorem execute_of_search_error {q : Query} {ns : List Notice} {e : EvalError}
    (h : q.search r strict documents = ⟨ns, .error e⟩) :
    q.execute r strict documents = ⟨ns, .error (.evaluation e)⟩ := by
  rw [execute_eq, h]
  rfl

theorem execute_of_search_ok {q : Query} {ns : List Notice} {found : List Json}
    (h : q.search r strict documents = ⟨ns, .ok found⟩) :
    q.execute r strict documents =
      ⟨ns ++ (q.finish documents.length found).notices,
        (q.finish documents.length found).outcome⟩ := by
  rw [execute_eq, h]
  rfl

theorem runQuery_trace (text : String) (parameters : Json) :
    QueryTrace r strict text documents parameters
      (runQuery r strict text parameters documents).notices
      ((runQuery r strict text parameters documents).outcome.map List.length) := by
  cases hparse : Query.parse r text parameters with
  | error e =>
      cases e with
      | text e =>
          rw [runQuery_of_refused r strict documents hparse]
          exact .refused hparse
      | parameters e =>
          rw [runQuery_of_badParameters r strict documents hparse]
          exact .badParameters hparse
  | ok q =>
      rw [runQuery_of_parsed r strict documents hparse]
      have hsearch := search_trace r strict q documents
      cases hrun : q.search r strict documents with | mk ns o =>
      rw [hrun] at hsearch
      cases o with
      | error e =>
          rw [execute_of_search_error r strict documents hrun]
          exact .unfiltered hparse hsearch
      | ok found =>
          rw [execute_of_search_ok r strict documents hrun]
          have hfound : q.kept r strict documents = .ok found := by
            rw [← q.outcome_search, hrun]
          rcases finish_cases (runnable_of_parse hparse) documents.length found with
            ⟨e, horder, h⟩ | ⟨results, hlength, h⟩
          · rw [h]
            exact .unordered hparse hsearch hfound horder
          · rw [h, mapError_ok, map_ok, hlength]
            exact .executed hparse hsearch

end Request

theorem length_pageOf (text : String) (size offset : Nat) (results : List Json) :
    (pageOf text size offset results).documents.length = min size (results.length - offset) := by
  rw [pageOf, List.length_take, List.length_drop]

/-- **Notices of a page request**: whatever is asked for, the notices
that are sent are those of the protocol, up to the point where the
request ends. -/
theorem servePage_trace (r : Registry) (strict : Bool) (text : String) (documents : List Json)
    (pageSize : Json) (token : Option String) (parameters : Json) :
    PageTrace r strict text documents pageSize token parameters
      (servePage r strict text documents pageSize token parameters).notices
      (servePage r strict text documents pageSize token parameters).outcome := by
  unfold servePage
  cases hsize : positiveSize? pageSize with
  | none => exact .badSize hsize
  | some size =>
      dsimp only
      cases htoken : startOffset text size token with
      | error e => exact .badToken hsize htoken
      | ok offset =>
          have hquery := runQuery_trace r strict documents text parameters
          rw [mapError_ok, Run.ofExcept_ok_bind]
          cases hrun : runQuery r strict text parameters documents with | mk ns o =>
          rw [hrun] at hquery
          cases o with
          | error e => exact .failed hsize htoken hquery
          | ok results =>
              have hlength := length_pageOf text size offset results
              have hmore : (pageOf text size offset results).hasMore =
                  decide (offset + size < results.length) := by
                rw [Bool.eq_iff_iff, hasMore_pageOf, decide_eq_true_iff]
              have hserved := PageTrace.served hsize htoken hquery hlength hmore
              rw [← hlength, ← hmore] at hserved
              exact hserved

end DocStore
