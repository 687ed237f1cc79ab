import DocStore.Json.Order
import DocStore.Proofs.Number.Rounding
import DocStore.Proofs.Text.Order

/-!
# How far sort keys are in order

Sorting wants a comparison that always answers and is transitive. Where
no integer beyond the doubles meets a double, the comparison of sort keys
answers (`exists_compareForSort`), it is antisymmetric
(`compareForSort_swap`), and it is transitive but for one pattern: a
double ties with two different integers that are both rounded to it, so
the greater integer is at most the double, the double at most the
smaller integer (`Merged`).

The kinds come first: values of different kinds go by rank, and ranks
are numbers. Inside a kind only numbers need an argument. Every number
but an integer beyond the doubles has a key (`sortKey?`), by which it is
compared unless both are integers; two integers compare by themselves,
and their keys never disagree (`atMost_sortKey`). So a chain of two
comparisons gives a chain of keys, and the keys decide unless both ends
are integers.
-/

namespace DocStore

/-! ## What the order is about -/

/-- The value is not NaN. -/
def Value.NotNaN : Value → Prop
  | some (.float x) => x.isNaN = false
  | _ => True

/-- An integer beyond the doubles meets a double. -/
def Overflows : Value → Value → Prop
  | some (.int n), some (.float _) => Double.overflowBound ≤ n.natAbs
  | some (.float _), some (.int n) => Double.overflowBound ≤ n.natAbs
  | _, _ => False

/-- The comparison answers that the first value comes first, or ties. -/
def AtMost (a b : Value) : Prop :=
  ∃ o, compareForSort a b = .ok o ∧ o.isLE = true

/-- Two integers, the greater one first, that both tie with a double. -/
def Merged : Value → Value → Value → Prop
  | some (.int m), some (.float x), some (.int n) =>
    n < m ∧ compareForSort (some (.int m)) (some (.float x)) = .ok .eq ∧
      compareForSort (some (.float x)) (some (.int n)) = .ok .eq
  | _, _, _ => False

/-! ## Keys of numbers -/

/-- The order of keys: by the first parts, then by the second. -/
def compareKeys : Int × Int → Int × Int → Ordering :=
  compareLex (compareOn (·.1)) (compareOn (·.2))

instance : Std.TransCmp compareKeys := by
  unfold compareKeys
  infer_instance

namespace Json

/-- The place of a number among the doubles. -/
def sortKey? : Json → Option (Int × Int)
  | int n => (Double.ofInt? n).bind (·.view.orderKey?)
  | float x => x.view.orderKey?
  | _ => none

/-- Both are integers, which are compared without keys. -/
def BothInt : Json → Json → Prop
  | int _, int _ => True
  | _, _ => False

end Json

namespace Double

theorem orderKey_of_not_nan {x : Double} (h : x.isNaN = false) :
    ∃ k, x.view.orderKey? = some k := by
  unfold isNaN at h
  cases hview : x.view with
  | nan => rw [hview] at h; cases h
  | infinite negative => exact ⟨_, rfl⟩
  | finite negative significand exponent => exact ⟨_, rfl⟩

theorem orderKey_of_units {x : Double} {i : Int} (h : x.view.units? = some i) :
    x.view.orderKey? = some (0, i) := by
  obtain ⟨negative, significand, exponent, hview⟩ := View.exists_finite h
  rw [hview] at h ⊢
  simp only [View.orderKey?, h, Option.map_some]

theorem compare_of_orderKey {x y : Double} {k l : Int × Int} (hx : x.view.orderKey? = some k)
    (hy : y.view.orderKey? = some l) : x.compare? y = some (compareKeys k l) := by
  simp only [compare?, hx, hy]
  rfl

theorem compare?_swap (x y : Double) : y.compare? x = (x.compare? y).map Ordering.swap := by
  unfold compare?
  match x.view.orderKey?, y.view.orderKey? with
  | some k, some l =>
      have hswap : compareKeys l k = (compareKeys k l).swap := Std.OrientedCmp.eq_swap
      exact congrArg some hswap
  | some _, none | none, some _ | none, none => rfl

end Double

namespace Json

/-- An integer has a key exactly if it is not beyond the doubles. -/
theorem sortKey_int_eq_none_iff (n : Int) :
    (int n).sortKey? = none ↔ Double.overflowBound ≤ n.natAbs := by
  rw [← Double.ofInt_eq_none_iff]
  cases h : Double.ofInt? n with
  | none => simp [sortKey?, h]
  | some x => simp [sortKey?, h, Double.orderKey_of_units (Double.units_of_ofInt h)]

/-- The keys of integers are in the order of the integers. -/
theorem sortKey_int_mono {m n : Int} {k l : Int × Int} (h : m ≤ n)
    (hk : (int m).sortKey? = some k) (hl : (int n).sortKey? = some l) :
    (compareKeys k l).isLE = true := by
  obtain ⟨x, hx, hkx⟩ := Option.bind_eq_some_iff.1 hk
  obtain ⟨y, hy, hly⟩ := Option.bind_eq_some_iff.1 hl
  have hi := Double.units_of_ofInt hx
  have hj := Double.units_of_ofInt hy
  have hle := Double.units_ofInt_mono h hx hy hi hj
  rw [Double.orderKey_of_units hi, Option.some.injEq] at hkx
  rw [Double.orderKey_of_units hj, Option.some.injEq] at hly
  subst hkx hly
  simpa [compareKeys, compareLex, compareOn, Int.isLE_compare] using hle

end Json

/-! ## Comparing numbers -/

section Number

variable {v w u : Json}

namespace Json

/-- Two numbers with keys, not both integers, are in the order of their
keys. -/
theorem compareNumbers_of_sortKey {k l : Int × Int} (hmixed : ¬ BothInt v w)
    (hk : v.sortKey? = some k) (hl : w.sortKey? = some l) :
    v.compareNumbers w = .ok (some (compareKeys k l)) := by
  match v, w with
  | .int _, .int _ => exact absurd trivial hmixed
  | .int m, .float y =>
      obtain ⟨x, hx, hkx⟩ := Option.bind_eq_some_iff.1 hk
      rw [compareNumbers, widen, hx]
      exact congrArg Except.ok (Double.compare_of_orderKey hkx hl)
  | .float x, .int n =>
      obtain ⟨y, hy, hly⟩ := Option.bind_eq_some_iff.1 hl
      rw [compareNumbers, widen, hy]
      exact congrArg Except.ok (Double.compare_of_orderKey hk hly)
  | .float x, .float y => exact congrArg Except.ok (Double.compare_of_orderKey hk hl)

/-- An integer beyond the doubles has no answer against a double. -/
theorem compareNumbers_of_overflows (h : Overflows (some v) (some w)) :
    v.compareNumbers w = .error .integerTooLarge := by
  match v, w, h with
  | .int n, .float _, h =>
      rw [compareNumbers, widen, (Double.ofInt_eq_none_iff n).2 h]
      rfl
  | .float _, .int n, h =>
      rw [compareNumbers, widen, (Double.ofInt_eq_none_iff n).2 h]
      rfl

/-- Turned around, the comparison answers the opposite. -/
theorem compareNumbers_swap (hv : v.kind = .number) (hw : w.kind = .number) :
    w.compareNumbers v = (v.compareNumbers w).map (Option.map Ordering.swap) := by
  match v, hv, w, hw with
  | .int m, _, .int n, _ =>
      have hswap : compare n m = (compare m n).swap := Std.OrientedCmp.eq_swap
      exact congrArg (fun o => Except.ok (some o)) hswap
  | .int m, _, .float y, _ =>
      rw [compareNumbers, compareNumbers]
      cases widen m with
      | error e => rfl
      | ok x => exact congrArg Except.ok (x.compare?_swap y)
  | .float x, _, .int n, _ =>
      rw [compareNumbers, compareNumbers]
      cases widen n with
      | error e => rfl
      | ok y => exact congrArg Except.ok (x.compare?_swap y)
  | .float x, _, .float y, _ => exact congrArg Except.ok (x.compare?_swap y)

theorem compareOrdinal_of_number (hv : v.kind = .number) (hw : w.kind = .number) :
    v.compareOrdinal w = (v.compareNumbers w).map fun o => some (o.getD .eq) := by
  unfold compareOrdinal
  split
  · cases hv
  · rw [if_pos ⟨hv, hw⟩]
    cases v.compareNumbers w <;> rfl

theorem kind_of_sortKey {k : Int × Int} (h : v.sortKey? = some k) : v.kind = .number := by
  match v, h with
  | .int _, _ | .float _, _ => rfl

end Json

/-- Numbers are sorted as they compare; NaN ties. -/
theorem compareForSort_of_number (hv : v.kind = .number) (hw : w.kind = .number) :
    compareForSort (some v) (some w) = (v.compareNumbers w).map (·.getD .eq) := by
  have hordinal : compareOrdinal (some v) (some w) =
      (v.compareNumbers w).map fun o => some (o.getD .eq) := Json.compareOrdinal_of_number hv hw
  have hkind : Value.kind (some v) = Value.kind (some w) := hv.trans hw.symm
  unfold compareForSort
  rw [if_pos hkind]
  split
  · rename_i heq _
    rw [Option.some.inj heq] at hv
    cases hv
  · rw [hordinal]
    cases v.compareNumbers w <;> rfl

theorem compareForSort_of_sortKey {k l : Int × Int} (hmixed : ¬ Json.BothInt v w)
    (hk : v.sortKey? = some k) (hl : w.sortKey? = some l) :
    compareForSort (some v) (some w) = .ok (compareKeys k l) := by
  rw [compareForSort_of_number (Json.kind_of_sortKey hk) (Json.kind_of_sortKey hl),
    Json.compareNumbers_of_sortKey hmixed hk hl]
  rfl

theorem compareForSort_int (m n : Int) :
    compareForSort (some (.int m)) (some (.int n)) = .ok (compare m n) := rfl

theorem atMost_int_iff (m n : Int) : AtMost (some (.int m)) (some (.int n)) ↔ m ≤ n := by
  simp only [AtMost, compareForSort_int, Except.ok.injEq, exists_eq_left', Int.isLE_compare]

/-- Two numbers are integers, or have keys, or overflow. -/
theorem number_cases (hv : v.kind = .number) (hw : w.kind = .number)
    (hv' : Value.NotNaN (some v)) (hw' : Value.NotNaN (some w)) :
    (∃ m n, v = .int m ∧ w = .int n) ∨
      (¬ Json.BothInt v w ∧ ∃ k l, v.sortKey? = some k ∧ w.sortKey? = some l) ∨
      Overflows (some v) (some w) := by
  cases v with
  | int m =>
      cases w with
      | int n => exact Or.inl ⟨m, n, rfl, rfl⟩
      | float y =>
          obtain ⟨l, hl⟩ := Double.orderKey_of_not_nan hw'
          cases hk : (Json.int m).sortKey? with
          | none => exact Or.inr (Or.inr ((Json.sortKey_int_eq_none_iff m).1 hk))
          | some k => exact Or.inr (Or.inl ⟨id, k, l, rfl, hl⟩)
      | _ => cases hw
  | float x =>
      obtain ⟨k, hk⟩ := Double.orderKey_of_not_nan hv'
      cases w with
      | int n =>
          cases hl : (Json.int n).sortKey? with
          | none => exact Or.inr (Or.inr ((Json.sortKey_int_eq_none_iff n).1 hl))
          | some l => exact Or.inr (Or.inl ⟨id, k, l, hk, rfl⟩)
      | float y =>
          obtain ⟨l, hl⟩ := Double.orderKey_of_not_nan hw'
          exact Or.inr (Or.inl ⟨id, k, l, hk, hl⟩)
      | _ => cases hw
  | _ => cases hv

theorem compareForSort_of_overflows {a b : Value} (h : Overflows a b) :
    compareForSort a b = .error .integerTooLarge := by
  match a, b, h with
  | some (.int n), some (.float x), h =>
      rw [compareForSort_of_number rfl rfl, Json.compareNumbers_of_overflows h]
      rfl
  | some (.float x), some (.int n), h =>
      rw [compareForSort_of_number rfl rfl, Json.compareNumbers_of_overflows h]
      rfl

/-- Numbers have an order, unless one is NaN or they overflow. -/
theorem Json.exists_compareNumbers (hv : v.kind = .number) (hw : w.kind = .number)
    (hv' : Value.NotNaN (some v)) (hw' : Value.NotNaN (some w))
    (hover : ¬ Overflows (some v) (some w)) : ∃ o, v.compareNumbers w = .ok (some o) := by
  rcases number_cases hv hw hv' hw' with ⟨m, n, rfl, rfl⟩ | ⟨hmixed, k, l, hk, hl⟩ | h
  · exact ⟨_, rfl⟩
  · exact ⟨_, compareNumbers_of_sortKey hmixed hk hl⟩
  · exact absurd h hover

theorem overflows_comm {a b : Value} (h : Overflows a b) : Overflows b a := by
  match a, b, h with
  | some (.int _), some (.float _), h => exact h
  | some (.float _), some (.int _), h => exact h

theorem bothInt_trans (h : Json.BothInt v w) (h' : Json.BothInt w u) : Json.BothInt v u := by
  match v, w, u, h, h' with
  | .int _, .int _, .int _, _, _ => exact trivial

end Number

/-! ## Comparing values -/

theorem Kind.rank_injective {k l : Kind} (h : k.rank = l.rank) : k = l := by
  cases k <;> cases l <;> first | rfl | cases h

theorem compareForSort_of_kind_ne {a b : Value} (h : a.kind ≠ b.kind) :
    compareForSort a b = .ok (compare a.kind.rank b.kind.rank) := by
  unfold compareForSort
  rw [if_neg h]

/-- Values of these kinds are compared by what they hold. -/
def Kind.Compared : Kind → Prop
  | boolean | number | string => True
  | _ => False

/-- Values of one kind tie, unless they are compared by what they
hold. -/
theorem compareForSort_of_tie {a b : Value} (h : a.kind = b.kind) (hkind : ¬ a.kind.Compared) :
    compareForSort a b = .ok .eq := by
  match a, b, h with
  | none, none, _ => rfl
  | none, some w, h => cases w <;> cases h
  | some .null, some .null, _ => rfl
  | some (.arr _), some (.arr _), _ => rfl
  | some (.obj _), some (.obj _), _ => rfl
  | some (.bool _), _, _ => exact absurd trivial hkind
  | some (.int _), _, _ => exact absurd trivial hkind
  | some (.float _), _, _ => exact absurd trivial hkind
  | some (.str _), _, _ => exact absurd trivial hkind

theorem Value.exists_bool {a : Value} (h : a.kind = .boolean) : ∃ x, a = some (.bool x) := by
  match a, h with
  | some (.bool x), _ => exact ⟨x, rfl⟩

theorem Value.exists_str {a : Value} (h : a.kind = .string) : ∃ s, a = some (.str s) := by
  match a, h with
  | some (.str s), _ => exact ⟨s, rfl⟩

theorem Value.exists_number {a : Value} (h : a.kind = .number) :
    ∃ v : Json, a = some v ∧ v.kind = .number := by
  match a, h with
  | some v, h => exact ⟨v, rfl, h⟩

theorem compareTexts_swap (s t : String) : compareTexts t s = (compareTexts s t).swap := by
  unfold compareTexts
  exact Std.OrientedCmp.eq_swap

theorem compareTexts_trans {s t u : String} (h : (compareTexts s t).isLE = true)
    (h' : (compareTexts t u).isLE = true) : (compareTexts s u).isLE = true := by
  unfold compareTexts at *
  exact Std.TransCmp.isLE_trans h h'

theorem compareForSort_bool (x y : Bool) :
    compareForSort (some (.bool x)) (some (.bool y)) = .ok (compare x.toNat y.toNat) := rfl

theorem compareForSort_str (s t : String) :
    compareForSort (some (.str s)) (some (.str t)) = .ok (compareTexts s t) := rfl

/-- The comparison answers where no integer beyond the doubles meets a
double. -/
theorem exists_compareForSort {a b : Value} (ha : a.NotNaN) (hb : b.NotNaN)
    (hover : ¬ Overflows a b) : ∃ o, compareForSort a b = .ok o := by
  by_cases hkind : a.kind = b.kind
  · cases hk : a.kind with
    | boolean =>
        obtain ⟨x, rfl⟩ := Value.exists_bool hk
        obtain ⟨y, rfl⟩ := Value.exists_bool (hkind ▸ hk)
        exact ⟨_, compareForSort_bool x y⟩
    | number =>
        obtain ⟨v, rfl, hv⟩ := Value.exists_number hk
        obtain ⟨w, rfl, hw⟩ := Value.exists_number (hkind ▸ hk)
        obtain ⟨o, ho⟩ := Json.exists_compareNumbers hv hw ha hb hover
        exact ⟨o, by rw [compareForSort_of_number hv hw, ho]; rfl⟩
    | string =>
        obtain ⟨s, rfl⟩ := Value.exists_str hk
        obtain ⟨t, rfl⟩ := Value.exists_str (hkind ▸ hk)
        exact ⟨_, compareForSort_str s t⟩
    | _ => exact ⟨_, compareForSort_of_tie hkind (by rw [hk]; exact id)⟩
  · exact ⟨_, compareForSort_of_kind_ne hkind⟩

/-- Turned around, the comparison answers the opposite. -/
theorem compareForSort_swap (a b : Value) :
    compareForSort b a = (compareForSort a b).map Ordering.swap := by
  by_cases hkind : a.kind = b.kind
  · cases hk : a.kind with
    | boolean =>
        obtain ⟨x, rfl⟩ := Value.exists_bool hk
        obtain ⟨y, rfl⟩ := Value.exists_bool (hkind ▸ hk)
        have hswap : compare y.toNat x.toNat = (compare x.toNat y.toNat).swap :=
          Std.OrientedCmp.eq_swap
        rw [compareForSort_bool, compareForSort_bool, hswap]
        rfl
    | number =>
        obtain ⟨v, rfl, hv⟩ := Value.exists_number hk
        obtain ⟨w, rfl, hw⟩ := Value.exists_number (hkind ▸ hk)
        rw [compareForSort_of_number hv hw, compareForSort_of_number hw hv,
          Json.compareNumbers_swap hv hw]
        rcases v.compareNumbers w with _ | _ | _ <;> rfl
    | string =>
        obtain ⟨s, rfl⟩ := Value.exists_str hk
        obtain ⟨t, rfl⟩ := Value.exists_str (hkind ▸ hk)
        rw [compareForSort_str, compareForSort_str, compareTexts_swap s t]
        rfl
    | _ =>
        rw [compareForSort_of_tie hkind (by rw [hk]; exact id),
          compareForSort_of_tie hkind.symm (by rw [← hkind, hk]; exact id)]
        rfl
  · have hswap : compare b.kind.rank a.kind.rank = (compare a.kind.rank b.kind.rank).swap :=
      Std.OrientedCmp.eq_swap
    rw [compareForSort_of_kind_ne hkind, compareForSort_of_kind_ne (Ne.symm hkind), hswap]
    rfl

/-! ## Transitivity -/

theorem atMost_of_answer {a b : Value} {o : Ordering} (h : compareForSort a b = .ok o) :
    AtMost a b ↔ o.isLE = true := by
  simp only [AtMost, h, Except.ok.injEq, exists_eq_left']

theorem not_overflows_of_atMost {a b : Value} (h : AtMost a b) : ¬ Overflows a b := by
  obtain ⟨o, ho, -⟩ := h
  intro hover
  rw [compareForSort_of_overflows hover] at ho
  cases ho

/-- The first of two values in order has no higher rank. -/
theorem rank_le_of_atMost {a b : Value} (h : AtMost a b) : a.kind.rank ≤ b.kind.rank := by
  by_cases hkind : a.kind = b.kind
  · exact Nat.le_of_eq (congrArg Kind.rank hkind)
  · rw [atMost_of_answer (compareForSort_of_kind_ne hkind), Nat.isLE_compare] at h
    exact h

theorem bothInt_of_merged {v w u : Json} (h : Merged (some v) (some w) (some u)) :
    Json.BothInt v u := by
  match v, w, u, h with
  | .int _, .float _, .int _, _ => exact trivial

theorem kinds_of_merged {a b c : Value} (h : Merged a b c) :
    a.kind = .number ∧ c.kind = .number := by
  match a, b, c, h with
  | some (.int _), some (.float _), some (.int _), _ => exact ⟨rfl, rfl⟩

section Number

variable {v w u : Json}

/-- Numbers in order have keys in order. -/
theorem atMost_sortKey {k l : Int × Int} (h : AtMost (some v) (some w))
    (hk : v.sortKey? = some k) (hl : w.sortKey? = some l) : (compareKeys k l).isLE = true := by
  by_cases hint : Json.BothInt v w
  · match v, w, hint with
    | .int m, .int n, _ => exact Json.sortKey_int_mono ((atMost_int_iff m n).1 h) hk hl
  · exact (atMost_of_answer (compareForSort_of_sortKey hint hk hl)).1 h

/-- Two numbers in order, not both integers, have keys. -/
theorem exists_sortKey_of_atMost (hv : v.kind = .number) (hw : w.kind = .number)
    (hv' : Value.NotNaN (some v)) (hw' : Value.NotNaN (some w)) (hmixed : ¬ Json.BothInt v w)
    (h : AtMost (some v) (some w)) : ∃ k l, v.sortKey? = some k ∧ w.sortKey? = some l := by
  rcases number_cases hv hw hv' hw' with ⟨m, n, rfl, rfl⟩ | ⟨-, k, l, hk, hl⟩ | hover
  · exact absurd trivial hmixed
  · exact ⟨k, l, hk, hl⟩
  · exact absurd hover (not_overflows_of_atMost h)

/-- A double between two integers leaves them in order, unless it ties
with both. -/
theorem atMost_iff_of_float_between {m n : Int} {x : Double}
    (hx : Value.NotNaN (some (.float x))) (hmx : AtMost (some (.int m)) (some (.float x)))
    (hxn : AtMost (some (.float x)) (some (.int n))) :
    m ≤ n ↔ ¬ Merged (some (.int m)) (some (.float x)) (some (.int n)) := by
  obtain ⟨k, l, hk, hl⟩ := exists_sortKey_of_atMost (v := .int m) rfl rfl trivial hx id hmx
  obtain ⟨l', j, hl', hj⟩ := exists_sortKey_of_atMost (w := .int n) rfl rfl hx trivial id hxn
  obtain rfl : l = l' := Option.some.inj (hl.symm.trans hl')
  have hkl := atMost_sortKey hmx hk hl
  have hlj := atMost_sortKey hxn hl hj
  constructor
  · rintro hle ⟨hlt, -, -⟩
    omega
  · intro hmerged
    refine Int.not_lt.1 fun hlt => hmerged ⟨hlt, ?_, ?_⟩
    -- The keys come round: the smaller integer has no greater key.
    · have hlk := Std.TransCmp.isLE_trans hlj (Json.sortKey_int_mono (Int.le_of_lt hlt) hj hk)
      rw [compareForSort_of_sortKey id hk hl, Std.OrientedCmp.isLE_antisymm hkl hlk]
    · have hjl := Std.TransCmp.isLE_trans (Json.sortKey_int_mono (Int.le_of_lt hlt) hj hk) hkl
      rw [compareForSort_of_sortKey id hl hj, Std.OrientedCmp.isLE_antisymm hlj hjl]

/-- A chain of numbers: the keys decide, unless both ends are
integers. -/
theorem atMost_iff_of_number (hv : v.kind = .number) (hw : w.kind = .number)
    (hu : u.kind = .number) (hv' : Value.NotNaN (some v)) (hw' : Value.NotNaN (some w))
    (hu' : Value.NotNaN (some u)) (hvw : AtMost (some v) (some w))
    (hwu : AtMost (some w) (some u)) (hover : ¬ Overflows (some v) (some u)) :
    AtMost (some v) (some u) ↔ ¬ Merged (some v) (some w) (some u) := by
  rcases number_cases hv hu hv' hu' with ⟨m, n, rfl, rfl⟩ | ⟨hmixed, k, j, hk, hj⟩ | h
  · rw [atMost_int_iff]
    match w, hw with
    | .int p, _ =>
        rw [atMost_int_iff] at hvw hwu
        exact iff_of_true (Int.le_trans hvw hwu) id
    | .float x, _ => exact atMost_iff_of_float_between hw' hvw hwu
  · obtain ⟨l, hl⟩ : ∃ l, w.sortKey? = some l := by
      by_cases hint : Json.BothInt v w
      · have hmixed' : ¬ Json.BothInt w u := fun h => hmixed (bothInt_trans hint h)
        obtain ⟨l, -, hl, -⟩ := exists_sortKey_of_atMost hw hu hw' hu' hmixed' hwu
        exact ⟨l, hl⟩
      · obtain ⟨-, l, -, hl⟩ := exists_sortKey_of_atMost hv hw hv' hw' hint hvw
        exact ⟨l, hl⟩
    have hkj := Std.TransCmp.isLE_trans (atMost_sortKey hvw hk hl) (atMost_sortKey hwu hl hj)
    exact iff_of_true ((atMost_of_answer (compareForSort_of_sortKey hmixed hk hj)).2 hkj)
      (mt bothInt_of_merged hmixed)
  · exact absurd h hover

end Number

/-- A chain of values with ends that can be compared is in order, unless
it merges two integers. -/
theorem atMost_iff_of_chain {a b c : Value} (ha : a.NotNaN) (hb : b.NotNaN) (hc : c.NotNaN)
    (hab : AtMost a b) (hbc : AtMost b c) (hover : ¬ Overflows a c) :
    AtMost a c ↔ ¬ Merged a b c := by
  have hrab := rank_le_of_atMost hab
  have hrbc := rank_le_of_atMost hbc
  by_cases hkind : a.kind = c.kind
  · have hbkind : b.kind = a.kind := Kind.rank_injective (by rw [hkind] at hrab ⊢; omega)
    cases hk : a.kind with
    | boolean =>
        obtain ⟨x, rfl⟩ := Value.exists_bool hk
        obtain ⟨y, rfl⟩ := Value.exists_bool (hbkind.trans hk)
        obtain ⟨z, rfl⟩ := Value.exists_bool (hkind ▸ hk)
        rw [atMost_of_answer (compareForSort_bool ..)] at hab hbc ⊢
        exact iff_of_true (Std.TransCmp.isLE_trans hab hbc) id
    | number =>
        obtain ⟨v, rfl, hv⟩ := Value.exists_number hk
        obtain ⟨w, rfl, hw⟩ := Value.exists_number (hbkind.trans hk)
        obtain ⟨u, rfl, hu⟩ := Value.exists_number (hkind ▸ hk)
        exact atMost_iff_of_number hv hw hu ha hb hc hab hbc hover
    | string =>
        obtain ⟨s, rfl⟩ := Value.exists_str hk
        obtain ⟨t, rfl⟩ := Value.exists_str (hbkind.trans hk)
        obtain ⟨u, rfl⟩ := Value.exists_str (hkind ▸ hk)
        rw [atMost_of_answer (compareForSort_str ..)] at hab hbc ⊢
        have hac : (compareTexts s u).isLE = true := compareTexts_trans hab hbc
        exact iff_of_true hac id
    | _ =>
        have htie := compareForSort_of_tie hkind (by rw [hk]; exact id)
        refine iff_of_true ((atMost_of_answer htie).2 rfl) fun hmerged => ?_
        rw [(kinds_of_merged hmerged).1] at hk
        cases hk
  · refine iff_of_true ?_ fun hmerged =>
      hkind ((kinds_of_merged hmerged).1.trans (kinds_of_merged hmerged).2.symm)
    rw [atMost_of_answer (compareForSort_of_kind_ne hkind), Nat.isLE_compare]
    exact Nat.le_trans hrab hrbc

/-- What sorting can rely on where there is no NaN and no integer beyond
the doubles meets a double: the comparison answers, turned around it
answers the opposite, and a chain is in order unless a double in its
middle merges two integers. -/
theorem compareForSort_preorder {a b c : Value} (ha : a.NotNaN) (hb : b.NotNaN)
    (hc : c.NotNaN) :
    (¬ Overflows a b →
        ∃ o, compareForSort a b = .ok o ∧ compareForSort b a = .ok o.swap) ∧
      (AtMost a b → AtMost b c → ¬ Overflows a c → (AtMost a c ↔ ¬ Merged a b c)) := by
  constructor
  · intro hover
    obtain ⟨o, ho⟩ := exists_compareForSort ha hb hover
    exact ⟨o, ho, by rw [compareForSort_swap, ho]; rfl⟩
  · intro hab hbc hover
    exact atMost_iff_of_chain ha hb hc hab hbc hover

/-- One, two and a half, three. -/
theorem compareForSort_preorder_one_to_three :
    (∃ o, compareForSort (some (.int 1)) (some (.float ⟨0x4004000000000000⟩)) = .ok o ∧
        compareForSort (some (.float ⟨0x4004000000000000⟩)) (some (.int 1)) = .ok o.swap) ∧
      AtMost (some (.int 1)) (some (.int 3)) := by
  have hone : (Json.int 1).sortKey? = some (0, 2 ^ 1074) := by decide +kernel
  have hhalf : (Json.float ⟨0x4004000000000000⟩).sortKey? = some (0, 5 * 2 ^ 1073) := by
    decide +kernel
  have hthree : (Json.int 3).sortKey? = some (0, 3 * 2 ^ 1074) := by decide +kernel
  have hlow := compareForSort_of_sortKey id hone hhalf
  have hhigh := compareForSort_of_sortKey id hhalf hthree
  obtain ⟨hanswers, hchain⟩ := compareForSort_preorder (a := some (.int 1))
    (b := some (.float ⟨0x4004000000000000⟩)) (c := some (.int 3)) trivial
    (by decide +kernel : Double.isNaN ⟨0x4004000000000000⟩ = false) trivial
  have hab := (atMost_of_answer hlow).2 (by decide +kernel)
  have hbc := (atMost_of_answer hhigh).2 (by decide +kernel)
  exact ⟨hanswers (not_overflows_of_atMost hab),
    (hchain hab hbc id).2 fun h => absurd h.1 (by decide)⟩

/-- Neither always answering nor transitive: `10 ^ 400` against one, and
`2 ^ 53 + 1` against `2 ^ 53` as a double and as an integer. -/
theorem compareForSort_not_preorder :
    compareForSort (some (.int (10 ^ 400))) (some (.float ⟨0x3ff0000000000000⟩)) =
        .error .integerTooLarge ∧
      AtMost (some (.int (2 ^ 53 + 1))) (some (.float ⟨0x4340000000000000⟩)) ∧
      AtMost (some (.float ⟨0x4340000000000000⟩)) (some (.int (2 ^ 53))) ∧
      ¬ AtMost (some (.int (2 ^ 53 + 1))) (some (.int (2 ^ 53))) := by
  have hodd : (Json.int (2 ^ 53 + 1)).sortKey? = some (0, 2 ^ 1127) := by decide +kernel
  have hdouble : (Json.float ⟨0x4340000000000000⟩).sortKey? = some (0, 2 ^ 1127) := by
    decide +kernel
  have heven : (Json.int (2 ^ 53)).sortKey? = some (0, 2 ^ 1127) := by decide +kernel
  have htie : compareKeys (0, 2 ^ 1127) (0, 2 ^ 1127) = .eq := Std.ReflCmp.compare_self
  refine ⟨compareForSort_of_overflows ?_, ?_, ?_, ?_⟩
  · show Double.overflowBound ≤ (10 ^ 400 : Int).natAbs
    decide +kernel
  · rw [atMost_of_answer (compareForSort_of_sortKey id hodd hdouble), htie]
    rfl
  · rw [atMost_of_answer (compareForSort_of_sortKey id hdouble heven), htie]
    rfl
  · rw [atMost_int_iff]
    decide

end DocStore
