import Mathlib.Algebra.Order.Floor.Div
import DocStore.Proofs.Query.Continuation
import DocStore.Proofs.Query.Execution

/-!
# Pages add up to the result

A client asks for a page and goes on with the token of each answer until
an answer carries none (`PageRun`). The pages received that way, put one
behind the other, are the result of the query from the first offset on,
nothing lost, repeated or reordered (`pageRun_exact`).

One request is one slice (`answer_eq_pageOf`), and the token of a page
leads to the offset behind it (`startOffset_of_next`): its text is
decoded, and it names this query text and this page size. So the run is
a walk over the offsets in steps of the page size, and the facts about
it (`PagedFrom`) follow by induction on what is left behind the offset
(`pageRun_of_start`).
-/

namespace DocStore

/-! ## Requests in a row -/

/-- The answer to a request for a page of `n` documents. -/
def pageAnswer (r : Registry) (strict : Bool) (text : String) (documents : List Json)
    (parameters : Json) (n : Nat) (token : Option String) : Except PageError Page :=
  (servePage r strict text documents (.int n) token parameters).outcome

/-- The pages received by passing the token of each answer to the next
request, until an answer carries none. -/
inductive PageRun (answer : Option String → Except PageError Page) :
    Option String → List Page → Prop where
  | last {token : Option String} {page : Page} (hpage : answer token = .ok page)
      (hnext : page.next? = none) : PageRun answer token [page]
  | more {token : Option String} {page : Page} {next : String} {rest : List Page}
      (hpage : answer token = .ok page) (hnext : page.next? = some next)
      (hrest : PageRun answer (some next) rest) : PageRun answer token (page :: rest)

/-- The requests of a run are forced: two runs from one token receive the
same pages. -/
theorem PageRun.unique {answer : Option String → Except PageError Page}
    {token : Option String} {pages others : List Page} (h : PageRun answer token pages)
    (h' : PageRun answer token others) : others = pages := by
  induction h generalizing others with
  | last hpage hnext =>
      cases h' with
      | last hpage' _ =>
          rw [hpage] at hpage'
          rw [Except.ok.inj hpage']
      | more hpage' hnext' _ =>
          rw [hpage] at hpage'
          rw [← Except.ok.inj hpage', hnext] at hnext'
          cases hnext'
  | more hpage hnext _ ih =>
      cases h' with
      | last hpage' hnext' =>
          rw [hpage] at hpage'
          rw [← Except.ok.inj hpage', hnext] at hnext'
          cases hnext'
      | more hpage' hnext' hrest' =>
          rw [hpage] at hpage'
          obtain rfl := Except.ok.inj hpage'
          rw [hnext] at hnext'
          obtain rfl := Option.some.inj hnext'
          rw [ih hrest']

/-- The pages cut the results behind an offset into slices of `n`. -/
structure PagedFrom (text : String) (results : List Json) (n offset : Nat)
    (pages : List Page) : Prop where
  /-- Put one behind the other, the pages are the results from the
  offset on. -/
  documents : pages.flatMap (·.documents) = results.drop offset
  /-- There is at least one page, and no more pages than needed. -/
  length : pages.length = max 1 ((results.length - offset) ⌈/⌉ n)
  /-- Every page but the last is full. -/
  full : ∀ page ∈ pages.dropLast, page.documents.length = n
  /-- A page carries a token exactly if it ends before the results do. -/
  next_iff : ∀ i page, pages[i]? = some page →
    (page.next?.isSome = true ↔ offset + (i + 1) * n < results.length)
  /-- Every token is accepted, and leads to where its page ends. -/
  accepted : ∀ (i : Nat) page token, pages[i]? = some page → page.next? = some token →
    startOffset text n (some token) = .ok (offset + (i + 1) * n)

/-- The last page alone. -/
theorem PagedFrom.single {text : String} {results : List Json} {n offset : Nat} (hn : 0 < n)
    (hlast : ¬ offset + n < results.length) :
    PagedFrom text results n offset [pageOf text n offset results] where
  documents := by
    simp only [List.flatMap_cons, List.flatMap_nil, List.append_nil, pageOf]
    exact List.take_of_length_le (by rw [List.length_drop]; omega)
  length := by
    have hle : (results.length - offset) ⌈/⌉ n ≤ 1 := by
      rw [ceilDiv_le_iff_le_mul hn]
      omega
    simp only [List.length_singleton]
    omega
  full := by simp
  next_iff := by
    intro i page hi
    obtain ⟨rfl, rfl⟩ : i = 0 ∧ pageOf text n offset results = page := by
      cases i with
      | zero => exact ⟨rfl, by simpa using hi⟩
      | succ i => simp at hi
    simp [pageOf, hlast]
  accepted := by
    intro i page token hi htoken
    obtain rfl : pageOf text n offset results = page := by
      cases i with
      | zero => simpa using hi
      | succ i => simp at hi
    simp [pageOf, hlast] at htoken

/-- One more page in front: the rest of the run starts behind it. -/
theorem PagedFrom.cons {text next : String} {results : List Json} {n offset : Nat}
    {rest : List Page} (hn : 0 < n) (hmore : offset + n < results.length)
    (hnext : (pageOf text n offset results).next? = some next)
    (hoffset : startOffset text n (some next) = .ok (offset + n))
    (h : PagedFrom text results n (offset + n) rest) :
    PagedFrom text results n offset (pageOf text n offset results :: rest) where
  documents := by
    rw [List.flatMap_cons, h.documents, ← List.drop_drop]
    exact List.take_append_drop n _
  length := by
    have hstep : results.length - offset = results.length - (offset + n) + n := by omega
    have hpos : 0 < (results.length - (offset + n)) ⌈/⌉ n := by
      by_contra hzero
      have := (ceilDiv_le_iff_le_mul hn).1 (Nat.le_of_not_lt hzero)
      omega
    have hceil : (results.length - offset) ⌈/⌉ n =
        (results.length - (offset + n)) ⌈/⌉ n + 1 := by
      rw [hstep, Nat.ceilDiv_eq_add_pred_div, Nat.ceilDiv_eq_add_pred_div,
        ← Nat.add_div_right _ hn]
      congr 1
      omega
    rw [List.length_cons, h.length, hceil]
    omega
  full := by
    intro page hpage
    have hne : rest ≠ [] := by
      rintro rfl
      have := h.length
      simp only [List.length_nil] at this
      omega
    rw [List.dropLast_cons_of_ne_nil hne] at hpage
    rcases List.mem_cons.1 hpage with rfl | hrest
    · simp only [pageOf, List.length_take, List.length_drop]
      omega
    · exact h.full page hrest
  next_iff := by
    intro i page hi
    cases i with
    | zero =>
        obtain rfl : pageOf text n offset results = page := by simpa using hi
        simp [hnext, hmore]
    | succ i =>
        rw [h.next_iff i page (by simpa using hi), Nat.succ_mul (i + 1)]
        omega
  accepted := by
    intro i page token hi htoken
    cases i with
    | zero =>
        obtain rfl : pageOf text n offset results = page := by simpa using hi
        obtain rfl : next = token := by simpa [hnext] using htoken
        simpa using hoffset
    | succ i =>
        rw [h.accepted i page token (by simpa using hi) htoken, Nat.succ_mul (i + 1)]
        congr 1
        omega

/-! ## One request -/

section Request

variable {r : Registry} {strict : Bool} {text : String} {parameters : Json}
  {documents results : List Json} {q : Query} {n offset : Nat} {token : Option String}

/-- An accepted request is answered by a slice of the result. -/
theorem answer_eq_pageOf (hn : 0 < n) (hq : Query.parse r text parameters = .ok q)
    (hresults : (q.execute r strict documents).outcome = .ok results)
    (hstart : startOffset text n token = .ok offset) :
    pageAnswer r strict text documents parameters n token =
      .ok (pageOf text n offset results) := by
  have hrun : (runQuery r strict text parameters documents).outcome = .ok results :=
    runQuery_eq_ok_iff.mpr ⟨q, hq, hresults⟩
  rw [pageAnswer, outcome_servePage hn, hstart, hrun]
  rfl

/-- The token of a page is accepted with the offset behind the page. The
number of results bounds the integers in the token. -/
theorem startOffset_of_next {next : String}
    (hlen : results.length ≤ 10 ^ Text.maxIntDigits)
    (hnext : (pageOf text n offset results).next? = some next) :
    startOffset text n (some next) = .ok (offset + n) := by
  by_cases hmore : offset + n < results.length
  · have hread : (ContinuationToken.mk (offset + n : Nat) (fingerprint text) n).Readable :=
      ⟨Int.natCast_nonneg _, Json.intReadable_of_lt (by simp only [Int.natAbs_natCast]; omega),
        Json.intReadable_of_lt (by simp only [Int.natAbs_natCast]; omega)⟩
    simp only [pageOf, hmore, if_true, Option.some.injEq] at hnext
    subst hnext
    simp only [startOffset, Option.bind_some, ContinuationToken.decode_encode_of_readable hread,
      ne_eq, not_true, if_false, Int.toNat_natCast]
  · simp [pageOf, hmore] at hnext

/-! ## The run -/

/-- The run from an accepted offset on, by induction on what is left
behind the offset: the page there is the last one, or the rest of the
run starts behind it. -/
theorem pageRun_of_start (hn : 0 < n) (hq : Query.parse r text parameters = .ok q)
    (hresults : (q.execute r strict documents).outcome = .ok results)
    (hlen : results.length ≤ 10 ^ Text.maxIntDigits)
    (hstart : startOffset text n token = .ok offset) :
    ∃ pages, PageRun (pageAnswer r strict text documents parameters n) token pages ∧
      PagedFrom text results n offset pages := by
  induction hleft : results.length - offset using Nat.strong_induction_on
    generalizing offset token with
  | _ left ih =>
  have hpage := answer_eq_pageOf hn hq hresults hstart
  by_cases hmore : offset + n < results.length
  · obtain ⟨next, hnext⟩ : ∃ next, (pageOf text n offset results).next? = some next := by
      simp only [pageOf, hmore, if_true, Option.some.injEq, exists_eq']
    have hoffset := startOffset_of_next hlen hnext
    obtain ⟨rest, hrest, hpaged⟩ := ih _ (by omega) hoffset rfl
    exact ⟨_, .more hpage hnext hrest, hpaged.cons hn hmore hnext hoffset⟩
  · have hnext : (pageOf text n offset results).next? = none := by
      simp only [pageOf, hmore, if_false]
    exact ⟨_, .last hpage hnext, .single hn hmore⟩

end Request

/-- From any accepted start, passing each token to the next request ends
after finitely many pages. They are the only pages a client can receive,
and they cut the result of the query from the offset of the start on
into slices of `n`: from the beginning there are `max 1 ⌈|R| / n⌉` of
them. The bound on the results is no restriction, since no list in
memory has that many elements; the offsets behind it could not be read
back out of a token. -/
theorem pageRun_exact {r : Registry} {strict : Bool} {text : String} {parameters : Json}
    {documents results : List Json} {q : Query} {n offset : Nat} {start : Option String}
    (hn : 0 < n) (hq : Query.parse r text parameters = .ok q)
    (hresults : (q.execute r strict documents).outcome = .ok results)
    (hlen : results.length ≤ 10 ^ Text.maxIntDigits)
    (hstart : startOffset text n start = .ok offset) :
    ∃ pages, PageRun (pageAnswer r strict text documents parameters n) start pages ∧
      (∀ others, PageRun (pageAnswer r strict text documents parameters n) start others →
        others = pages) ∧
      PagedFrom text results n offset pages := by
  obtain ⟨pages, hrun, hpaged⟩ := pageRun_of_start hn hq hresults hlen hstart
  exact ⟨pages, hrun, fun _ hothers => hrun.unique hothers, hpaged⟩

/-- Three documents in pages of two. -/
theorem pageRun_exact_three :
    ∃ pages, PageRun (pageAnswer .standard false "SELECT * FROM c"
        [.obj [("id", .str "a")], .obj [("id", .str "b")], .obj [("id", .str "c")]] .null 2)
        none pages ∧
      (∀ others, PageRun (pageAnswer .standard false "SELECT * FROM c"
        [.obj [("id", .str "a")], .obj [("id", .str "b")], .obj [("id", .str "c")]] .null 2)
        none others → others = pages) ∧
      PagedFrom "SELECT * FROM c"
        [.obj [("id", .str "a")], .obj [("id", .str "b")], .obj [("id", .str "c")]] 2 0 pages :=
  have hlen : 3 ≤ 10 ^ Text.maxIntDigits :=
    Nat.le_trans (by decide : 3 ≤ 10) (Nat.le_self_pow (by decide) 10)
  pageRun_exact (q := ⟨"SELECT * FROM c", .everything, "c", none, none, [], none⟩)
    (by decide) rfl rfl hlen rfl

end DocStore
