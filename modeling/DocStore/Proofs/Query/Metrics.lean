import DocStore.Proofs.Query.Protocol
import DocStore.Proofs.Text.Order
import DocStore.Query.Metrics

/-!
# Metrics balance

What is shown of the metrics after page requests, one after the other,
fits together whatever became of them (`metrics_balance`).

A series adds up samples that are shown (`QueryMetrics.total`). Each
notice adds to it what the notice alone decides (`total_record`), so
after any history a series is the sum over all notices that were sent
(`total_recordAll`), and what is said about the series of one request
can be added up over requests (`Balanced.add`). About one request it
follows from the protocol (`PageCall.balanced`).
-/

namespace DocStore

open QueryMetrics

/-! ## Series -/

/-- The series that are held against one another. -/
inductive Series where
  | parsed
  | parseTimes
  | evaluated (matched : Bool)
  | evaluationErrors
  | stageCount (stage : Stage)
  | stageSum (stage : Stage)
  | pages

namespace Series

/-- The name of the samples, without that of the space. -/
def name : Series → String
  | parsed => "_queries_parsed_total"
  | parseTimes => "_parse_duration_seconds_count"
  | evaluated _ => "_documents_evaluated_total"
  | evaluationErrors => "_evaluation_errors_total"
  | stageCount _ => "_stage_documents_count"
  | stageSum _ => "_stage_documents_sum"
  | pages => "_pages_served_total"

/-- The labels that the samples have. -/
def labels : Series → List (String × String)
  | evaluated matched => [("matched", truthLabel matched)]
  | stageCount stage | stageSum stage => [("stage", stage.name)]
  | parsed | parseTimes | evaluationErrors | pages => []

/-- A sample with one label has the labels of the series. -/
def picks (s : Series) (label value : String) : Bool :=
  s.labels.all ([(label, value)].contains ·)

/-- The sample belongs to the series. -/
def has (s : Series) (space : String) (x : Sample) : Bool :=
  x.name == space ++ s.name && s.labels.all (x.labels.contains ·)

/-- The sum of the samples of the series. -/
def sumOf (s : Series) (space : String) (xs : List Sample) : Nat :=
  ((xs.filter (s.has space)).map (·.value)).sum

/-- What the series shows of the observations of a stage. -/
def measure : Series → List Nat → Nat
  | stageCount _, ns => ns.length
  | stageSum _, ns => ns.sum
  | _, _ => 0

/-- What a notice adds to the series; how long a parse took adds to none. -/
def weight : Series → Notice → Nat
  | parsed, .parseEnd _ => 1
  | parseTimes, .parseEnd _ => 1
  | evaluated b, .predicate _ matched _ => if matched = b then 1 else 0
  | evaluationErrors, .predicate _ _ error => if error.isSome then 1 else 0
  | stageCount s, .stage t _ _ => if t = s then 1 else 0
  | stageSum s, .stage t _ output => if t = s then output else 0
  | pages, .page .. => 1
  | _, _ => 0

/-- What notices add to the series. -/
def weigh (s : Series) (notices : List Notice) : Nat :=
  (notices.map s.weight).sum

end Series

/-- What is shown of a series. -/
def QueryMetrics.total (m : QueryMetrics) (space : String) (s : Series) : Nat :=
  s.sumOf space (m.samples space)

/-! ## What is shown -/

namespace Series

variable (s : Series) (space : String)

theorem sumOf_append (xs ys : List Sample) :
    s.sumOf space (xs ++ ys) = s.sumOf space xs + s.sumOf space ys := by
  simp [sumOf]

theorem sumOf_cons (x : Sample) (xs : List Sample) :
    s.sumOf space (x :: xs) = (if s.has space x then x.value else 0) + s.sumOf space xs := by
  unfold sumOf
  rw [List.filter_cons]
  split <;> simp

@[simp] theorem sumOf_nil : s.sumOf space [] = 0 := rfl

theorem sumOf_perm {xs ys : List Sample} (h : xs.Perm ys) : s.sumOf space xs = s.sumOf space ys :=
  ((h.filter _).map _).sum_nat

theorem has_eq_false {n : String} (h : n ≠ s.name) (labels : List (String × String))
    (value : Nat) : s.has space ⟨space ++ n, labels, value⟩ = false := by
  simp [has, h]

theorem has_eq (labels : List (String × String)) (value : Nat) :
    s.has space ⟨space ++ s.name, labels, value⟩ = s.labels.all (labels.contains ·) := by
  simp [has]

end Series

/-- The sum of the entries whose keys pass a test. -/
def tally (p : String → Bool) (t : Table Nat) : Nat :=
  ((t.filter fun e => p e.1).map (·.2)).sum

/-- What a series counts. -/
def QueryMetrics.count (m : QueryMetrics) (s : Series) : Nat :=
  match s with
  | .parsed => m.queriesParsed
  | .parseTimes => m.parseTimes.length
  | .evaluated _ => tally (s.picks "matched") m.documentsEvaluated
  | .evaluationErrors => tally (s.picks "error_type") m.evaluationErrors
  | .stageCount _ | .stageSum _ =>
    tally (s.picks "stage") (m.stageDocuments.map fun e => (e.1, s.measure e.2))
  | .pages => m.pagesServed

theorem tally_cons (p : String → Bool) (e : String × Nat) (t : Table Nat) :
    tally p (e :: t) = (if p e.1 then e.2 else 0) + tally p t := by
  unfold tally
  rw [List.filter_cons]
  split <;> simp

theorem tally_put (p : String → Bool) (t : Table Nat) (label : String) (n : Nat) :
    tally p (t.put label ((t.get? label).getD 0 + n)) = tally p t + if p label then n else 0 := by
  induction t with
  | nil =>
      rw [Table.put, Table.get?, tally_cons]
      simp [tally]
  | cons e rest ih =>
      obtain ⟨key, value⟩ := e
      rw [Table.put, Table.get?]
      split
      · rename_i hkey
        rw [tally_cons, tally_cons, ← hkey, Option.getD_some]
        dsimp only
        split <;> omega
      · rw [tally_cons, tally_cons, ih]
        omega

theorem tally_increment (p : String → Bool) (t : Table Nat) (label : String) :
    tally p (increment t label) = tally p t + if p label then 1 else 0 :=
  tally_put p t label 1

theorem Series.measure_append (s : Series) (ns : List Nat) (n : Nat) :
    s.measure (ns ++ [n]) = s.measure ns + s.measure [n] := by
  cases s <;> simp [measure]

theorem tally_observe (p : String → Bool) (s : Series) (t : Table (List Nat)) (label : String)
    (n : Nat) :
    tally p ((observe t label n).map fun e => (e.1, s.measure e.2)) =
      tally p (t.map fun e => (e.1, s.measure e.2)) + if p label then s.measure [n] else 0 := by
  rw [observe, ← Table.put_map, s.measure_append, ← tally_put, Table.get?_map]
  cases t.get? label with
  | none => cases s <;> rfl
  | some ns => rfl

theorem tally_zero (p : String → Bool) (t : Table (List Nat)) :
    tally p (t.map fun e => (e.1, 0)) = 0 := by
  induction t with
  | nil => rfl
  | cons e rest ih => rw [List.map_cons, tally_cons, ih, ite_self]

namespace Series

variable (s : Series) (space : String)

theorem sumOf_counterSamples (n label : String) (t : Table Nat) :
    s.sumOf space (counterSamples (space ++ n) label t) =
      if n = s.name then tally (s.picks label) t else 0 := by
  induction t with
  | nil => simp [counterSamples, tally]
  | cons e rest ih =>
      rw [counterSamples, List.map_cons, sumOf_cons, ← counterSamples, ih]
      by_cases hn : n = s.name
      · rw [hn, has_eq, if_pos rfl, if_pos rfl, tally_cons, picks]
      · rw [has_eq_false s space hn, if_neg hn, if_neg hn]
        rfl

/-- The samples of the buckets belong to no series. -/
theorem sumOf_stageSamples (stage : String) (ns : List Nat) :
    s.sumOf space (stageSamples (space ++ "_stage_documents") stage ns) =
      if s.picks "stage" stage then s.measure ns else 0 := by
  cases s <;>
    simp [stageSamples, stageBounds, sumOf_cons, has, picks, name, labels, measure,
      String.append_assoc, List.sum_eq_foldl]

theorem sumOf_stageDocuments (t : Table (List Nat)) :
    s.sumOf space (t.flatMap fun (stage, ns) =>
        stageSamples (space ++ "_stage_documents") stage ns) =
      tally (s.picks "stage") (t.map fun e => (e.1, s.measure e.2)) := by
  induction t with
  | nil => rfl
  | cons e rest ih =>
      rw [List.flatMap_cons, sumOf_append, sumOf_stageSamples, ih, List.map_cons, tally_cons]

end Series

/-- The samples of the other series do not count. -/
theorem QueryMetrics.total_eq_count (m : QueryMetrics) (space : String) (s : Series) :
    m.total space s = m.count s := by
  rw [total, samples, s.sumOf_perm space ((Text.perm_sortByKey ..).trans (Text.perm_sortByKey ..))]
  simp only [Series.sumOf_append, Series.sumOf_cons, Series.sumOf_nil, Series.sumOf_counterSamples,
    Series.sumOf_stageDocuments]
  cases s <;> simp [count, Series.has, Series.name, Series.labels, Series.measure, tally_zero]

/-! ## Notices -/

theorem Stage.name_inj {s t : Stage} : s.name = t.name ↔ s = t := by
  cases s <;> cases t <;> decide

theorem truthLabel_inj {a b : Bool} : truthLabel a = truthLabel b ↔ a = b := by
  cases a <;> cases b <;> decide

namespace QueryMetrics

theorem count_record (elapsed : Double) (m : QueryMetrics) (n : Notice) (s : Series) :
    (m.record elapsed n).count s = m.count s + s.weight n := by
  cases n with
  | parseEnd q =>
      cases s with
      | parseTimes => exact List.length_append
      | _ => rfl
  | predicate document matched error =>
      cases error <;> cases s <;>
        simp [record, count, Series.weight, tally_increment, Series.picks, Series.labels,
          truthLabel_inj, eq_comm]
  | stage t input output =>
      cases s with
      | stageCount stage | stageSum stage =>
          rw [count, record, tally_observe]
          simp [count, Series.weight, Series.picks, Series.labels, Series.measure,
            Stage.name_inj, eq_comm]
      | _ => rfl
  | _ => cases s <;> rfl

variable (elapsed : Double) (m : QueryMetrics) (space : String) (s : Series)

theorem total_record (n : Notice) :
    (m.record elapsed n).total space s = m.total space s + s.weight n := by
  rw [total_eq_count, total_eq_count, count_record]

theorem total_recordAll (ns : List Notice) :
    (m.recordAll elapsed ns).total space s = m.total space s + s.weigh ns := by
  induction ns generalizing m with
  | nil => rfl
  | cons n rest ih =>
      have hcons : m.recordAll elapsed (n :: rest) =
          (m.record elapsed n).recordAll elapsed rest := rfl
      rw [hcons, ih, total_record, Nat.add_assoc]
      rfl

theorem total_empty : empty.total space s = 0 := by
  rw [total_eq_count]
  cases s <;> rfl

end QueryMetrics

/-! ## Balance -/

/-- What is counted fits together. -/
structure Balanced (f : Series → Nat) : Prop where
  parseTimes : f .parsed = f .parseTimes
  filters : f (.stageCount .filter) ≤ f .parsed
  /-- A page is served behind all stages; only the order can fail. -/
  pages : f .pages ≤ f (.stageCount .filter)
  orders : f (.stageCount .order) = f .pages
  limits : f (.stageCount .limit) = f .pages
  projects : f (.stageCount .project) = f .pages
  ordered : f (.stageSum .order) ≤ f (.stageSum .filter)
  limited : f (.stageSum .limit) ≤ f (.stageSum .order)
  projected : f (.stageSum .project) = f (.stageSum .limit)
  /-- A document that cannot be judged does not match. -/
  errors : f .evaluationErrors ≤ f (.evaluated false)

theorem Balanced.zero : Balanced fun _ => 0 := by
  constructor <;> rfl

theorem Balanced.add {f g : Series → Nat} (hf : Balanced f) (hg : Balanced g) :
    Balanced fun s => f s + g s where
  parseTimes := congrArg₂ (· + ·) hf.parseTimes hg.parseTimes
  filters := Nat.add_le_add hf.filters hg.filters
  pages := Nat.add_le_add hf.pages hg.pages
  orders := congrArg₂ (· + ·) hf.orders hg.orders
  limits := congrArg₂ (· + ·) hf.limits hg.limits
  projects := congrArg₂ (· + ·) hf.projects hg.projects
  ordered := Nat.add_le_add hf.ordered hg.ordered
  limited := Nat.add_le_add hf.limited hg.limited
  projected := congrArg₂ (· + ·) hf.projected hg.projected
  errors := Nat.add_le_add hf.errors hg.errors

theorem Series.weigh_append (s : Series) (ns ms : List Notice) :
    s.weigh (ns ++ ms) = s.weigh ns + s.weigh ms := by
  simp [weigh]

/-- Notices of evaluation: comparisons, and predicates with errors only
where the document does not match. -/
def Notice.isEvaluation : Notice → Bool
  | comparison .. => true
  | predicate _ matched error => error.isNone || !matched
  | _ => false

theorem Notice.isEvaluation_of_isComparison {n : Notice} (h : n.isComparison = true) :
    n.isEvaluation = true := by
  cases n <;> first | rfl | cases h

theorem FilterTrace.isEvaluation {r : Registry} {strict : Bool} {condition : Expr}
    {documents : List Json} {ns : List Notice} {ending : Option EvalError}
    (h : FilterTrace r strict condition documents ns ending) :
    ∀ n ∈ ns, n.isEvaluation = true := by
  have hcompare : ∀ {comparisons : List Notice}, (∀ n ∈ comparisons, n.isComparison = true) →
      ∀ n ∈ comparisons, n.isEvaluation = true :=
    fun h n hn => Notice.isEvaluation_of_isComparison (h n hn)
  induction h with
  | done => exact List.forall_mem_nil _
  | decided hcomparisons hholds hrest ih =>
      exact List.forall_mem_append.mpr
        ⟨hcompare hcomparisons, List.forall_mem_cons.mpr ⟨rfl, ih⟩⟩
  | passedOver hlenient hcomparisons hholds he hrest ih =>
      exact List.forall_mem_append.mpr
        ⟨hcompare hcomparisons, List.forall_mem_cons.mpr ⟨rfl, ih⟩⟩
  | ended hstrict hcomparisons hholds he =>
      exact List.forall_mem_append.mpr ⟨hcompare hcomparisons, List.forall_mem_singleton.mpr rfl⟩
  | interrupted hcomparisons hholds he => exact hcompare hcomparisons

theorem SearchTrace.isEvaluation {r : Registry} {strict : Bool} {documents : List Json}
    {where? : Option Expr} {ns : List Notice} {found : Except EvalError Nat}
    (h : SearchTrace r strict documents where? ns found) : ∀ n ∈ ns, n.isEvaluation = true := by
  cases h with
  | all => exact List.forall_mem_nil _
  | filtered h => exact h.isEvaluation
  | ended h => exact h.isEvaluation

theorem Balanced.of_isEvaluation {ns : List Notice} (h : ∀ n ∈ ns, n.isEvaluation = true) :
    Balanced (·.weigh ns) := by
  induction ns with
  | nil => exact .zero
  | cons n rest ih =>
      have hn : Balanced (·.weight n) := by
        have hevaluation := h n List.mem_cons_self
        cases n with
        | comparison => constructor <;> rfl
        | predicate document matched error =>
            constructor <;> try rfl
            cases error with
            | none => exact Nat.zero_le _
            | some e =>
                cases matched with
                | true => cases hevaluation
                | false => exact Nat.le_refl _
        | _ => cases hevaluation
      exact hn.add (ih fun n hn => h n (List.mem_cons_of_mem _ hn))

/-- Evaluation may come in between. -/
theorem Balanced.around {before ns after : List Notice} (h : Balanced (·.weigh (before ++ after)))
    (hns : ∀ n ∈ ns, n.isEvaluation = true) : Balanced (·.weigh (before ++ (ns ++ after))) := by
  have hweigh : (fun s : Series => s.weigh (before ++ (ns ++ after))) =
      fun s => s.weigh ns + s.weigh (before ++ after) := by
    funext s
    simp only [Series.weigh_append]
    omega
  rw [hweigh]
  exact (Balanced.of_isEvaluation hns).add h

/-! ## Requests -/

section Trace

variable {r : Registry} {strict : Bool} {text : String} {documents : List Json}
  {parameters : Json} {ns : List Notice}

theorem limitCount_le (limit : Option Nat) (n : Nat) : limitCount limit n ≤ n := by
  cases limit with
  | none => exact Nat.le_refl n
  | some bound => exact Nat.min_le_right bound n

/-- A query that comes to no result. -/
theorem QueryTrace.balanced_of_error {e : PageError}
    (h : QueryTrace r strict text documents parameters ns (.error e)) :
    Balanced (·.weigh ns) := by
  cases h with
  | refused => constructor <;> simp [Series.weigh, Series.weight]
  | badParameters => constructor <;> simp [Series.weigh, Series.weight]
  | @unfiltered q found e hparse hsearch =>
      have hparsed : Balanced (·.weigh ([.parseStart text, .parseEnd q] ++ [])) := by
        constructor <;> simp [Series.weigh, Series.weight]
      have htotal := hparsed.around hsearch.isEvaluation
      rwa [List.append_nil] at htotal
  | @unordered q found results e hparse hsearch hfound horder =>
      have hparsed : Balanced (·.weigh ([.parseStart text, .parseEnd q] ++
          [.stage .filter documents.length results.length])) := by
        constructor <;> simp [Series.weigh, Series.weight]
      exact hparsed.around hsearch.isEvaluation

/-- A query that has a result, and the page. -/
theorem QueryTrace.balanced_of_ok {n : Nat}
    (h : QueryTrace r strict text documents parameters ns (.ok n)) (offset returned : Nat)
    (hasMore : Bool) : Balanced (·.weigh (ns ++ [.page offset returned hasMore])) := by
  cases h with
  | @executed q found n hparse hsearch =>
      have hlimit : limitCount q.limit n ≤ n := limitCount_le q.limit n
      have hserved : Balanced (·.weigh ([.parseStart text, .parseEnd q] ++
          [.stage .filter documents.length n, .stage .order n n,
            .stage .limit n (limitCount q.limit n),
            .stage .project (limitCount q.limit n) (limitCount q.limit n),
            .page offset returned hasMore])) := by
        constructor <;> simp [Series.weigh, Series.weight, hlimit]
      have htotal := hserved.around hsearch.isEvaluation
      simpa using htotal

end Trace

/-- Errors in the page size or the token. -/
def PageError.isRejection : PageError → Bool
  | pageSize _ | token _ => true
  | refused _ | execution _ => false

theorem QueryTrace.isRejection_eq_false {r : Registry} {strict : Bool} {text : String}
    {documents : List Json} {parameters : Json} {ns : List Notice} {e : PageError}
    (h : QueryTrace r strict text documents parameters ns (.error e)) :
    e.isRejection = false := by
  cases h <;> rfl

/-- A call of a pager, and what the stopwatch shows of it. -/
structure PageCall where
  registry : Registry
  strict : Bool
  text : String
  documents : List Json
  pageSize : Json
  token : Option String
  parameters : Json
  elapsed : Double

namespace PageCall

def run (c : PageCall) : Noticed PageError Page :=
  servePage c.registry c.strict c.text c.documents c.pageSize c.token c.parameters

/-- The call fails for its page size or its token. -/
def isRejected (c : PageCall) : Bool :=
  match c.run.outcome with
  | .ok _ => false
  | .error e => e.isRejection

/-- The query of the call. -/
def query (c : PageCall) : Noticed PageError (List Json) :=
  runQuery c.registry c.strict c.text c.parameters c.documents

/-- The call fails before the query runs, or serves a page of its
results. -/
theorem run_cases (c : PageCall) :
    (∃ e, c.run = .fail e) ∨ ∃ size offset, c.run = (do
      let results ← c.query
      let page := pageOf c.text size offset results
      Run.notify (.page offset page.documents.length page.hasMore)
      pure page) := by
  unfold run servePage
  cases positiveSize? c.pageSize with
  | none => exact .inl ⟨_, rfl⟩
  | some size =>
      dsimp only
      cases startOffset c.text size c.token with
      | error e => exact .inl ⟨.token e, rfl⟩
      | ok offset => exact .inr ⟨size, offset, rfl⟩

theorem query_trace (c : PageCall) :
    QueryTrace c.registry c.strict c.text c.documents c.parameters c.query.notices
      (c.query.outcome.map List.length) :=
  runQuery_trace c.registry c.strict c.documents c.text c.parameters

theorem notices_of_isRejected {c : PageCall} (h : c.isRejected = true) : c.run.notices = [] := by
  unfold isRejected at h
  rcases c.run_cases with ⟨e, hrun⟩ | ⟨size, offset, hrun⟩
  · rw [hrun]
    rfl
  · have htrace := c.query_trace
    cases hquery : c.query.outcome with
    | error e =>
        rw [hrun, Run.outcome_bind_of_error hquery] at h
        rw [hquery] at htrace
        exact absurd h (Bool.eq_false_iff.mp htrace.isRejection_eq_false)
    | ok results =>
        rw [hrun, Run.outcome_bind_of_ok hquery] at h
        cases h

theorem balanced (c : PageCall) : Balanced (·.weigh c.run.notices) := by
  rcases c.run_cases with ⟨e, hrun⟩ | ⟨size, offset, hrun⟩
  · rw [hrun]
    exact .zero
  · have htrace := c.query_trace
    cases hquery : c.query.outcome with
    | error e =>
        rw [hquery] at htrace
        rw [hrun, Run.notices_bind_of_error hquery]
        exact htrace.balanced_of_error
    | ok results =>
        rw [hquery] at htrace
        rw [hrun, Run.notices_bind_of_ok hquery]
        exact htrace.balanced_of_ok ..

end PageCall

/-! ## Histories -/

namespace QueryMetrics

/-- The metrics after a call. -/
def serve (m : QueryMetrics) (c : PageCall) : QueryMetrics :=
  m.recordAll c.elapsed c.run.notices

/-- The metrics after calls, one after the other. -/
def serveAll (m : QueryMetrics) (calls : List PageCall) : QueryMetrics :=
  calls.foldl serve m

variable {m : QueryMetrics} {space : String}

theorem balanced_serve (h : Balanced (m.total space)) (c : PageCall) :
    Balanced ((m.serve c).total space) := by
  have htotal : (m.serve c).total space = fun s => m.total space s + s.weigh c.run.notices := by
    funext s
    exact total_recordAll c.elapsed m space s c.run.notices
  rw [htotal]
  exact h.add c.balanced

theorem balanced_serveAll (h : Balanced (m.total space)) (calls : List PageCall) :
    Balanced ((m.serveAll calls).total space) := by
  induction calls generalizing m with
  | nil => exact h
  | cons c rest ih => exact ih (balanced_serve h c)

theorem balanced_empty : Balanced (empty.total space) := by
  have htotal : empty.total space = fun _ => 0 := by
    funext s
    exact total_empty space s
  rw [htotal]
  exact .zero

end QueryMetrics

/-- **Metrics balance.** After any page requests, with any functions,
texts, documents and parameters, strict or not, however long they took and
wherever they ended, what is shown fits together; and a request that is
refused for its page size or its token leaves all metrics as they are. -/
theorem metrics_balance (space : String) (calls : List PageCall) :
    Balanced ((empty.serveAll calls).total space) ∧
      ∀ (m : QueryMetrics) (c : PageCall), c.isRejected = true → m.serve c = m := by
  refine ⟨balanced_serveAll balanced_empty calls, fun m c h => ?_⟩
  rw [serve, PageCall.notices_of_isRejected h]
  rfl

/-- A page of two documents found, then a page of no size. -/
theorem metrics_balance_page :
    let call : PageCall :=
      ⟨.standard, false, "SELECT TOP 1 * FROM c", [.obj [], .obj []], .int 5, none, .null,
        .ofDecimal false 25 (-2)⟩
    let rejected := { call with pageSize := .int 0 }
    let m := empty.serveAll [call]
    rejected.isRejected = true ∧ m.total "db" .pages = 1 ∧ m.total "db" .parseTimes = 1 ∧
      m.total "db" (.stageSum .filter) = 2 ∧ m.total "db" (.stageSum .project) = 1 ∧
      Balanced (m.total "db") ∧ m.serve rejected = m := by
  intro call rejected m
  have hrejected : rejected.isRejected = true := by decide +kernel
  obtain ⟨hbalanced, hunchanged⟩ := metrics_balance "db" [call]
  refine ⟨hrejected, ?_, ?_, ?_, ?_, hbalanced, hunchanged m rejected hrejected⟩
  all_goals
    rw [total_eq_count]
    decide +kernel

end DocStore
