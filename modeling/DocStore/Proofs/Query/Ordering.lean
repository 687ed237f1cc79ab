import DocStore.Proofs.Json.Order
import DocStore.Proofs.Sorting.Stability
import DocStore.Query.Execution

/-!
# Documents in order

Sort keys order documents by the first key that tells two of them apart
(`compareDocuments`), and turned round the comparison answers the opposite
(`compareDocuments_swap`). So where it answers for all pairs of a list and
is transitive, it is a total preorder, and sorting by it is stable
(`orderDocuments_stable`).

Under the first key, documents that miss it lead in either direction; the
direction says in which order the defined values come (`LeadsUnder`), and
plays no part in which documents tie.
-/

namespace DocStore

/-! ## Turned round -/

theorem compareUnder_swap (direction : SortDirection) (v w : Value) :
    compareUnder direction w v = (compareUnder direction v w).map Ordering.swap := by
  match v, w with
  | none, none | none, some _ | some _, none => rfl
  | some v, some w =>
      cases direction with
      | ascending => exact compareForSort_swap (some v) (some w)
      | descending =>
          show (compareForSort (some w) (some v)).map Ordering.swap = _
          rw [compareForSort_swap (some v) (some w)]
          rfl

/-! ## Documents -/

theorem compareDocuments_cons (key : SortKey) (keys : List SortKey) (a b : Json) :
    compareDocuments (key :: keys) a b = (do
      let o ← compareUnder key.direction (a.resolve key.segments) (b.resolve key.segments)
      if o = .eq then compareDocuments keys a b else .ok o) := by
  rw [compareDocuments]
  congr 1
  funext o
  cases o <;> rfl

theorem compareDocuments_swap (keys : List SortKey) (a b : Json) :
    compareDocuments keys b a = (compareDocuments keys a b).map Ordering.swap := by
  induction keys with
  | nil => rfl
  | cons key keys ih =>
      rw [compareDocuments_cons, compareDocuments_cons, compareUnder_swap key.direction
        (a.resolve key.segments)]
      cases compareUnder key.direction (a.resolve key.segments) (b.resolve key.segments) with
      | error e => rfl
      | ok o =>
          cases o with
          | eq => exact ih
          | lt => rfl
          | gt => rfl

/-- The first document does not come behind the second. -/
def NotBehind (keys : List SortKey) (a b : Json) : Prop :=
  ∃ o, compareDocuments keys a b = .ok o ∧ o.isLE = true

instance (keys : List SortKey) (a b : Json) : Decidable (NotBehind keys a b) :=
  decidable_of_iff ((compareDocuments keys a b).toOption.any Ordering.isLE = true) ⟨exists_ok_of_any,
    fun ⟨_, ho, hle⟩ => by rwa [ho]⟩

/-! ## Ties -/

/-- The values tie under a sort key. -/
def tiedUnder (direction : SortDirection) (v w : Value) : Bool :=
  match compareUnder direction v w with
  | .ok .eq => true
  | _ => false

/-- The documents tie under every sort key. -/
def tied (keys : List SortKey) (a b : Json) : Bool :=
  keys.all fun key => tiedUnder key.direction (a.resolve key.segments) (b.resolve key.segments)

theorem tiedUnder_iff {direction : SortDirection} {v w : Value} :
    tiedUnder direction v w = true ↔ compareUnder direction v w = .ok .eq := by
  rw [tiedUnder]
  cases compareUnder direction v w with
  | error e => simp
  | ok o => cases o <;> simp

/-- The direction plays no part in which values tie. -/
theorem tiedUnder_direction (direction direction' : SortDirection) (v w : Value) :
    tiedUnder direction v w = tiedUnder direction' v w := by
  have hdown : tiedUnder .descending v w = tiedUnder .ascending v w := by
    match v, w with
    | none, none | none, some _ | some _, none => rfl
    | some v, some w =>
        simp only [tiedUnder, compareUnder]
        cases compareForSort (some v) (some w) with
        | error e => rfl
        | ok o => cases o <;> rfl
  cases direction <;> cases direction' <;> simp [hdown]

theorem compareDocuments_eq_iff_tied {keys : List SortKey} {a b : Json} :
    compareDocuments keys a b = .ok .eq ↔ tied keys a b = true := by
  induction keys with
  | nil => simp [compareDocuments, tied]
  | cons key keys ih =>
      rw [compareDocuments_cons, tied, List.all_cons, Bool.and_eq_true, tiedUnder_iff, ← tied, ← ih]
      rw [bind_eq_ok_iff]
      constructor
      · rintro ⟨o, ho, h⟩
        by_cases heq : o = .eq
        · rw [if_pos heq] at h
          exact ⟨heq ▸ ho, h⟩
        · rw [if_neg heq] at h
          exact absurd (Except.ok.inj h) heq
      · rintro ⟨ho, h⟩
        exact ⟨.eq, ho, by rwa [if_pos rfl]⟩

/-! ## The first key -/

/-- Under a sort key, a missing value leads; of two values, the lesser one
does, or the greater one. -/
def LeadsUnder (direction : SortDirection) : Value → Value → Prop
  | none, _ => True
  | some _, none => False
  | v, w =>
    match direction with
    | .ascending => AtMost v w
    | .descending => AtMost w v

theorem leadsUnder_of_compareUnder {direction : SortDirection} {v w : Value} {o : Ordering}
    (h : compareUnder direction v w = .ok o) (ho : o.isLE = true) : LeadsUnder direction v w := by
  match v, w with
  | none, _ => exact trivial
  | some _, none =>
      obtain rfl : .gt = o := Except.ok.inj h
      cases ho
  | some v, some w =>
      cases direction with
      | ascending => exact ⟨o, h, ho⟩
      | descending =>
          refine ⟨o, ?_, ho⟩
          rw [compareForSort_swap (some v) (some w)]
          exact h

theorem leadsUnder_of_notBehind {key : SortKey} {keys : List SortKey} {a b : Json}
    (h : NotBehind (key :: keys) a b) :
    LeadsUnder key.direction (a.resolve key.segments) (b.resolve key.segments) := by
  obtain ⟨o, ho, hle⟩ := h
  rw [compareDocuments_cons, bind_eq_ok_iff] at ho
  obtain ⟨first, hfirst, hrest⟩ := ho
  refine leadsUnder_of_compareUnder hfirst ?_
  by_cases heq : first = .eq
  · rw [heq]
    rfl
  · rw [if_neg heq] at hrest
    rwa [Except.ok.inj hrest]

/-! ## Sorting -/

section Sorting

variable {key : SortKey} {keys : List SortKey} {documents : List Json}

/-- What the comparison of two documents answers, if it does. -/
def answerOf (keys : List SortKey) (a b : Json) : Ordering :=
  (compareDocuments keys a b).toOption.getD .eq

theorem answerOf_of_ok {a b : Json} {o : Ordering} (h : compareDocuments keys a b = .ok o) :
    answerOf keys a b = o := by
  rw [answerOf, h]
  rfl

theorem answerOf_swap (keys : List SortKey) (a b : Json) :
    answerOf keys b a = (answerOf keys a b).swap := by
  rw [answerOf, answerOf, compareDocuments_swap keys a b]
  cases compareDocuments keys a b <;> rfl

theorem notBehind_iff {a b : Json} (h : ∃ o, compareDocuments keys a b = .ok o) :
    NotBehind keys a b ↔ (answerOf keys a b).isLE = true := by
  obtain ⟨o, ho⟩ := h
  rw [answerOf_of_ok ho]
  constructor
  · rintro ⟨o', ho', hle⟩
    rwa [← Except.ok.inj (ho.symm.trans ho')] at hle
  · intro hle
    exact ⟨o, ho, hle⟩

theorem answerOf_eq_iff_tied {a b : Json} (h : ∃ o, compareDocuments keys a b = .ok o) :
    (answerOf keys a b == .eq) = tied keys a b := by
  obtain ⟨o, ho⟩ := h
  rw [Bool.eq_iff_iff, ← compareDocuments_eq_iff_tied, answerOf_of_ok ho, ho, beq_iff_eq]
  exact ⟨congrArg _, Except.ok.inj⟩

/-- **Sorting documents is stable.** If the sort keys compare every two of
the documents, transitively, these are put in order and those that tie
under all keys stay as they were. Under the first key, missing values lead
in either direction; reversing it reverses the values, and no ties. -/
theorem orderDocuments_stable
    (hanswers : ∀ a ∈ documents, ∀ b ∈ documents, ∃ o, compareDocuments (key :: keys) a b = .ok o)
    (htrans : ∀ a ∈ documents, ∀ b ∈ documents, ∀ c ∈ documents, NotBehind (key :: keys) a b →
      NotBehind (key :: keys) b c → NotBehind (key :: keys) a c) :
    ∃ ordered, orderDocuments (key :: keys) documents = .ok ordered ∧
      ordered.Perm documents ∧
      ordered.Pairwise (NotBehind (key :: keys)) ∧
      (∀ d ∈ documents,
        ordered.filter (tied (key :: keys) d) = documents.filter (tied (key :: keys) d)) ∧
      ordered.Pairwise (fun a b =>
        LeadsUnder key.direction (a.resolve key.segments) (b.resolve key.segments)) ∧
      ∀ direction, tied ({ key with direction := direction } :: keys) = tied (key :: keys) := by
  let less (a b : Json) : Except Overflow Bool := do
    return (← compareDocuments (key :: keys) a b) == .lt
  have hless : Sorting.Answers less (answerOf (key :: keys)) documents := by
    intro a ha b hb
    obtain ⟨o, ho⟩ := hanswers a ha b hb
    simp only [less]
    rw [ho, answerOf_of_ok ho]
    rfl
  have hswap : ∀ a ∈ documents, ∀ b ∈ documents,
      answerOf (key :: keys) a b = (answerOf (key :: keys) b a).swap :=
    fun a _ b _ => answerOf_swap (key :: keys) b a
  have htotal : ∀ a ∈ documents, ∀ b ∈ documents, ∀ c ∈ documents,
      (answerOf (key :: keys) a b).isLE = true → (answerOf (key :: keys) b c).isLE = true →
        (answerOf (key :: keys) a c).isLE = true := by
    intro a ha b hb c hc hab hbc
    rw [← notBehind_iff (hanswers a ha b hb)] at hab
    rw [← notBehind_iff (hanswers b hb c hc)] at hbc
    rw [← notBehind_iff (hanswers a ha c hc)]
    exact htrans a ha b hb c hc hab hbc
  obtain ⟨ordered, hordered, hperm, hin, hties⟩ := Sorting.sort_stable hless hswap htotal
  have hmem : ∀ d ∈ ordered, d ∈ documents := fun d hd => hperm.mem_iff.mp hd
  have hnotBehind : ordered.Pairwise (NotBehind (key :: keys)) := by
    refine hin.imp_of_mem ?_
    intro a b ha hb hab
    exact (notBehind_iff (hanswers a (hmem a ha) b (hmem b hb))).mpr hab
  refine ⟨ordered, hordered, hperm, hnotBehind, ?_, ?_, ?_⟩
  · intro d hd
    have htied : ∀ zs : List Json, (∀ z ∈ zs, z ∈ documents) →
        zs.filter (tied (key :: keys) d) = zs.filter (answerOf (key :: keys) d · == .eq) := by
      intro zs hzs
      exact List.filter_congr fun z hz => (answerOf_eq_iff_tied (hanswers d hd z (hzs z hz))).symm
    rw [htied ordered hmem, htied documents fun _ hz => hz]
    exact hties d hd
  · exact hnotBehind.imp leadsUnder_of_notBehind
  · intro direction
    funext a b
    simp only [tied, List.all_cons]
    rw [tiedUnder_direction direction key.direction]

/-- The oldest first: a missing age leads, and two of one age stay as they
were. -/
theorem orderDocuments_stable_oldest :
    let keys : List SortKey := [⟨"c.age", ["age"], .descending⟩, ⟨"c.city", ["city"], .ascending⟩]
    let ann : Json := .obj [("id", .str "ann"), ("age", .int 30)]
    let bob : Json := .obj [("id", .str "bob"), ("age", .int 42)]
    let cyd : Json := .obj [("id", .str "cyd")]
    let dan : Json := .obj [("id", .str "dan"), ("age", .int 30)]
    ∃ ordered, orderDocuments keys [ann, bob, cyd, dan] = .ok ordered ∧
      ordered.Perm [ann, bob, cyd, dan] ∧ ordered.Pairwise (NotBehind keys) ∧
      ordered.filter (tied keys ann) = [ann, dan] := by
  intro keys ann bob cyd dan
  have hanswers : ∀ a ∈ [ann, bob, cyd, dan], ∀ b ∈ [ann, bob, cyd, dan],
      (compareDocuments keys a b).toOption.any (fun _ => true) = true := by decide +kernel
  have htrans : ∀ a ∈ [ann, bob, cyd, dan], ∀ b ∈ [ann, bob, cyd, dan],
      ∀ c ∈ [ann, bob, cyd, dan], NotBehind keys a b → NotBehind keys b c → NotBehind keys a c := by
    decide +kernel
  obtain ⟨ordered, hordered, hperm, hsorted, hties, -⟩ := orderDocuments_stable
    (fun a ha b hb => (exists_ok_of_any (hanswers a ha b hb)).imp fun _ h => h.1) htrans
  refine ⟨ordered, hordered, hperm, hsorted, ?_⟩
  rw [hties ann (List.mem_cons_self ..)]
  rfl

end Sorting

end DocStore
