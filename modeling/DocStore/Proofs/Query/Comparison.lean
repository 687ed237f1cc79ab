import DocStore.Proofs.Json.Equality
import DocStore.Proofs.Query.Evaluation

/-!
# The comparison operators agree

Equality and the comparisons by order look at operands in two ways. On
two numbers and on two texts both ways come to one three-way comparison
(`Json.Ordered`), from which each operator reads its answer
(`Json.Ordered.evalDefined`) and which answers the opposite when it is
turned around (`Json.exists_ordered`). So what one operator answers tells
what the others do. Other values have no order
(`Json.compareOrdinal_eq_none`), and equality stands by itself.
-/

namespace DocStore

/-! ## One three-way comparison -/

namespace Json

variable {v w : Json} {o : Ordering}

/-- Equality and order come to the same comparison. -/
structure Ordered (v w : Json) (o : Ordering) : Prop where
  ordinal : v.compareOrdinal w = .ok (some o)
  equal : v.equal w = .ok (o == .eq)

theorem ordered_of_number (hv : v.kind = .number) (hw : w.kind = .number)
    (h : v.compareNumbers w = .ok (some o)) : v.Ordered w o where
  ordinal := by
    rw [compareOrdinal_of_number hv hw, h]
    rfl
  equal := by
    have hequal : v.equal w = v.deepEqual w := by
      unfold Json.equal
      split
      · cases hv
      · rfl
    rw [hequal, deepEqual_of_number hv, numbersEqual, h]
    cases o <;> rfl

theorem ordered_str (s t : String) : (str s).Ordered (str t) (compareTexts s t) where
  ordinal := rfl
  equal := by
    have htexts : (Text.lower s.toList == Text.lower t.toList) = (compareTexts s t == .eq) := by
      rw [Bool.eq_iff_iff, beq_iff_eq, beq_iff_eq]
      exact Text.compareChars_eq_eq_iff.symm
    exact congrArg Except.ok htexts

/-- Two numbers have an order, as have two texts. -/
theorem exists_ordered (hkind : v.kind = w.kind) (hordinal : v.kind.isOrdinal = true)
    (hv : Value.NotNaN (some v)) (hw : Value.NotNaN (some w))
    (hover : ¬ Overflows (some v) (some w)) : ∃ o, v.Ordered w o ∧ w.Ordered v o.swap := by
  cases hk : v.kind with
  | number =>
      have hk' : w.kind = .number := hkind ▸ hk
      obtain ⟨o, ho⟩ := exists_compareNumbers hk hk' hv hw hover
      refine ⟨o, ordered_of_number hk hk' ho, ordered_of_number hk' hk ?_⟩
      rw [compareNumbers_swap hk hk', ho]
      rfl
  | string =>
      match v, hk, w, hkind ▸ hk with
      | .str s, _, .str t, _ =>
          exact ⟨_, ordered_str s t, compareTexts_swap s t ▸ ordered_str t s⟩
  | _ =>
      rw [hk] at hordinal
      cases hordinal

/-- Other values have none. -/
theorem compareOrdinal_eq_none (h : ¬ (v.kind = w.kind ∧ v.kind.isOrdinal = true)) :
    v.compareOrdinal w = .ok none := by
  unfold compareOrdinal
  split
  · exact absurd ⟨rfl, rfl⟩ h
  · refine if_neg fun hnumbers => h ⟨hnumbers.1.trans hnumbers.2.symm, ?_⟩
    rw [hnumbers.1]
    rfl

end Json

/-! ## Operators -/

namespace Comparison

/-- The operator for operands that have changed places. -/
def mirror : Comparison → Comparison
  | eq => eq
  | ne => ne
  | gt => lt
  | ge => le
  | lt => gt
  | le => ge

theorem holds_mirror (c : Comparison) (o : Ordering) : c.mirror.holds o.swap = c.holds o := by
  cases c <;> cases o <;> rfl

/-- The operator that states the order. -/
def ofOrdering : Ordering → Comparison
  | .lt => lt
  | .eq => eq
  | .gt => gt

theorem holds_iff_eq_ofOrdering {c : Comparison} {o : Ordering} :
    c ∈ [lt, eq, gt] ∧ c.holds o = true ↔ c = ofOrdering o := by
  cases c <;> cases o <;> decide

end Comparison

theorem Json.Ordered.evalDefined {v w : Json} {o : Ordering} (h : v.Ordered w o) (c : Comparison)
    (at? : Option Position) : c.evalDefined at? v w = .ok (c.holds o) := by
  cases c with
  | eq | ne =>
      rw [Comparison.evalDefined, h.equal]
      rfl
  | gt | ge | lt | le => simp only [Comparison.evalDefined, h.ordinal]

/-- Inequality is the negation of equality, in its errors too. -/
theorem evalDefined_ne (at? : Option Position) (v w : Json) :
    Comparison.ne.evalDefined at? v w = (Comparison.eq.evalDefined at? v w).map (!·) := by
  rw [Comparison.evalDefined, Comparison.evalDefined]
  cases v.equal w <;> rfl

theorem evalDefined_of_not_ordinal {v w : Json}
    (h : ¬ (v.kind = w.kind ∧ v.kind.isOrdinal = true)) {c : Comparison} (heq : c ≠ .eq)
    (hne : c ≠ .ne) (at? : Option Position) :
    c.evalDefined at? v w = .error (.unsupportedComparison c v.kind w.kind at?) := by
  cases c with
  | eq => exact absurd rfl heq
  | ne => exact absurd rfl hne
  | gt | ge | lt | le => simp only [Comparison.evalDefined, Json.compareOrdinal_eq_none h]

/-! ## Expressions -/

namespace Expr

variable {r : Registry} {document : Json} {left right : Expr} {v w : Json}

theorem outcome_compare_defined (hleft : (left.eval r document).outcome = .ok (some v))
    (hright : (right.eval r document).outcome = .ok (some w)) (c : Comparison)
    (at? : Option Position) :
    ((binary (.compare c) left right at?).eval r document).outcome =
      (c.evalDefined at? v w).map fun b => some (.bool b) := by
  rw [outcome_compare, hleft, hright]
  rfl

theorem outcome_not_of_bool {e : Expr} {x : Except EvalError Bool}
    (h : (e.eval r document).outcome = x.map fun b => some (.bool b)) (at? : Option Position) :
    ((unary .not e at?).eval r document).outcome = (x.map (!·)).map fun b => some (.bool b) := by
  rw [outcome_not, h]
  cases x <;> rfl

end Expr

/-- **The comparison operators agree.** Two numbers, or two texts, are in
one of three orders, which one of the operators says and the others
follow, also for operands that have changed places; no other values are
compared by order. Whatever the values, inequality negates equality, and
equality holds from both sides. -/
theorem compare_coherent {r : Registry} {document : Json} {left right : Expr} {v w : Json}
    (hleft : (left.eval r document).outcome = .ok (some v))
    (hright : (right.eval r document).outcome = .ok (some w))
    (hv : Value.NotNaN (some v)) (hw : Value.NotNaN (some w)) (hvkeyed : v.Keyed)
    (hwkeyed : w.Keyed) (p q s : Option Position) :
    let value (e : Expr) := (e.eval r document).outcome
    let comparison (c : Comparison) := Expr.binary (.compare c) left right p
    let mirrored (c : Comparison) := Expr.binary (.compare c) right left q
    let negation (c : Comparison) := Expr.unary .not (comparison c) s
    (v.kind = w.kind ∧ v.kind.isOrdinal = true → ¬ Overflows (some v) (some w) →
        (∀ c, ∃ b, value (comparison c) = .ok (some (.bool b))) ∧
        (∃! c, c ∈ [.lt, .eq, .gt] ∧ value (comparison c) = .ok (some (.bool true))) ∧
        value (comparison .le) = value (negation .gt) ∧
        value (comparison .ge) = value (negation .lt) ∧
        ∀ c, value (comparison c) = value (mirrored c.mirror)) ∧
      (¬ (v.kind = w.kind ∧ v.kind.isOrdinal = true) → ∀ c, c ≠ .eq → c ≠ .ne →
        value (comparison c) = .error (.unsupportedComparison c v.kind w.kind p)) ∧
      value (comparison .ne) = value (negation .eq) ∧
      (∀ x y, value (comparison .eq) = .ok x → value (mirrored .eq) = .ok y → x = y) ∧
      (¬ ClashesInPlace v w → ∃ b, value (comparison .eq) = .ok (some (.bool b)) ∧
        value (mirrored .eq) = .ok (some (.bool b))) := by
  intro value comparison mirrored negation
  have hcomparison : ∀ c, value (comparison c) =
      (c.evalDefined p v w).map fun b => some (.bool b) :=
    fun c => Expr.outcome_compare_defined hleft hright c p
  have hmirrored : ∀ c, value (mirrored c) = (c.evalDefined q w v).map fun b => some (.bool b) :=
    fun c => Expr.outcome_compare_defined hright hleft c q
  have hnegation : ∀ c, value (negation c) =
      ((c.evalDefined p v w).map (!·)).map fun b => some (.bool b) :=
    fun c => Expr.outcome_not_of_bool (hcomparison c) s
  refine ⟨?_, ?_, ?_, ?_, ?_⟩
  · rintro ⟨hkind, hordinal⟩ hover
    obtain ⟨o, ho, ho'⟩ := Json.exists_ordered hkind hordinal hv hw hover
    simp only [hcomparison, hmirrored, hnegation, ho.evalDefined, ho'.evalDefined, map_ok]
    refine ⟨fun c => ⟨_, rfl⟩, ?_, ?_, ?_, fun c => ?_⟩
    · simp only [Except.ok.injEq, Option.some.injEq, Json.bool.injEq,
        Comparison.holds_iff_eq_ofOrdering]
      exact existsUnique_eq
    · cases o <;> rfl
    · cases o <;> rfl
    · rw [c.holds_mirror]
  · intro h c heq hne
    rw [hcomparison, evalDefined_of_not_ordinal h heq hne]
    rfl
  · rw [hcomparison, hnegation, evalDefined_ne]
  · intro x y hx hy
    obtain ⟨b, hb, rfl⟩ := map_eq_ok_iff.mp (hcomparison .eq ▸ hx)
    obtain ⟨c, hc, rfl⟩ := map_eq_ok_iff.mp (hmirrored .eq ▸ hy)
    rw [Json.equal_answers_comm hvkeyed hwkeyed (mapError_eq_ok_iff.mp hb)
      (mapError_eq_ok_iff.mp hc)]
  · intro hclash
    obtain ⟨b, hb⟩ := Json.exists_equal hclash
    have hb' : w.equal v = .ok b := (Json.equal_comm hvkeyed hwkeyed hclash).trans hb
    refine ⟨b, ?_, ?_⟩
    · rw [hcomparison, Comparison.evalDefined, hb]
      rfl
    · rw [hmirrored, Comparison.evalDefined, hb']
      rfl

/-- Two against two and a half, and true against one. -/
theorem compare_coherent_mixed :
    let document : Json := .obj [("n", .int 2), ("flag", .bool true)]
    let path (key : String) : Expr := .property key [key] none
    let half : Expr := .constant (some (.float ⟨0x4004000000000000⟩)) none
    let one : Expr := .constant (some (.int 1)) none
    let value (e : Expr) := (e.eval .standard document).outcome
    (∃! c, c ∈ [.lt, .eq, .gt] ∧
        value (.binary (.compare c) (path "n") half none) = .ok (some (.bool true))) ∧
      (∃ b, value (.binary (.compare .eq) (path "flag") one none) = .ok (some (.bool b)) ∧
        value (.binary (.compare .eq) one (path "flag") none) = .ok (some (.bool b))) ∧
      value (.binary (.compare .lt) (path "flag") one none) =
        .error (.unsupportedComparison .lt .boolean .number none) := by
  intro document path half one value
  have hvalue : value (path "n") = .ok (some (.int 2)) ∧
      value (path "flag") = .ok (some (.bool true)) ∧
      value half = .ok (some (.float ⟨0x4004000000000000⟩)) ∧
      value one = .ok (some (.int 1)) := by
    refine ⟨?_, ?_, ?_, ?_⟩ <;> · simp only [value, path, half, one, Expr.eval]; rfl
  obtain ⟨hn, hflag, hhalf, hone⟩ := hvalue
  have hordinal := (compare_coherent hn hhalf trivial
    (by decide +kernel : Double.isNaN ⟨0x4004000000000000⟩ = false)
    (fun _ h => by cases h) (fun _ h => by cases h) none none none).1
  obtain ⟨-, hother, -, -, hequal⟩ := compare_coherent hflag hone trivial trivial
    (fun _ h => by cases h) (fun _ h => by cases h) none none none
  have hrange : ¬ Double.overflowBound ≤ (2 : Int).natAbs := by decide +kernel
  refine ⟨(hordinal ⟨rfl, rfl⟩ hrange).2.1, hequal ?_,
    hother (by decide) .lt (by decide) (by decide)⟩
  rintro ⟨a, b, hab, hover⟩
  cases hab with
  | self => cases hover

end DocStore
