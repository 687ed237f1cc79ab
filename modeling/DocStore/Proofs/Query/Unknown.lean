import DocStore.Proofs.Query.Evaluation

/-!
# Undefined is not known yet

A document may be filled in: fields that were missing get values, those
that were there keep theirs. For the truth values this is the order in
which the unknown is below true and false (`FilledIn`), and AND and OR are
monotone in it (`Connective.filledIn_join`), as are negation and the
comparisons, which are undefined if an operand is.

So an expression without calls keeps its value when the document is filled
in, unless its evaluation then fails (`persists_eval`): an operand that
was undefined may turn out to be of a kind that cannot be compared or
negated. It does not matter that other operands may be left alone than
before, since a value that decides does so on either side of a connective.
-/

namespace DocStore

/-! ## What is in an expression -/

namespace Expr

/-- There are no function calls in the expression. -/
def CallFree : Expr → Prop
  | constant _ _ | property _ _ _ => True
  | unary _ e _ => e.CallFree
  | binary _ left right _ => left.CallFree ∧ right.CallFree
  | call _ _ _ => False

mutual

/-- The paths of the properties in an expression. -/
def paths : Expr → List (List String)
  | constant _ _ => []
  | property _ segments _ => [segments]
  | unary _ e _ => paths e
  | binary _ left right _ => paths left ++ paths right
  | call _ args _ => pathsAll args

def pathsAll : List Expr → List (List String)
  | [] => []
  | e :: es => paths e ++ pathsAll es

end

end Expr

/-! ## Filling in -/

/-- The second is the first, if that is known. -/
def FilledIn {α : Type} (x y : Option α) : Prop :=
  x = none ∨ x = y

namespace FilledIn

variable {α : Type} {x y : Option α}

theorem none_left (y : Option α) : FilledIn none y := .inl rfl

theorem refl (x : Option α) : FilledIn x x := .inr rfl

theorem trans {z : Option α} (h : FilledIn x y) (h' : FilledIn y z) : FilledIn x z := by
  rcases h with rfl | rfl
  · exact none_left z
  · exact h'

theorem eq_some (h : FilledIn x y) {a : α} (hx : x = some a) : y = some a := by
  rcases h with rfl | rfl
  · cases hx
  · exact hx

theorem truth {v w : Value} (h : FilledIn v w) : FilledIn v.truth w.truth := by
  rcases h with rfl | rfl
  · exact none_left _
  · exact refl _

theorem toValue {s t : Truth} (h : FilledIn s t) : FilledIn s.toValue t.toValue := by
  rcases h with rfl | rfl
  · exact none_left _
  · exact refl _

end FilledIn

namespace Connective

/-- The unknown joins as any truth value would, or stays unknown. -/
theorem filledIn_join_none_left (k : Connective) (s t : Truth) :
    FilledIn (k.join none t) (k.join s t) := by
  cases k <;> rcases s with _ | _ | _ <;> rcases t with _ | _ | _ <;>
    first | exact .inl rfl | exact .inr rfl

theorem filledIn_join_none_right (k : Connective) (s t : Truth) :
    FilledIn (k.join s none) (k.join s t) := by
  cases k <;> rcases s with _ | _ | _ <;> rcases t with _ | _ | _ <;>
    first | exact .inl rfl | exact .inr rfl

theorem filledIn_join (k : Connective) {s s' t t' : Truth} (hs : FilledIn s s')
    (ht : FilledIn t t') : FilledIn (k.join s t) (k.join s' t') := by
  have hleft : FilledIn (k.join s t) (k.join s' t) := by
    rcases hs with rfl | rfl
    · exact k.filledIn_join_none_left s' t
    · exact .refl _
  rcases ht with rfl | rfl
  · exact hleft.trans (k.filledIn_join_none_right s' t')
  · exact hleft

end Connective

/-! ## Outcomes that persist -/

/-- What the first run answers, the second answers too, with what was
unknown filled in, or it fails. -/
def Persists (x y : Except EvalError Value) : Prop :=
  ∀ v, x = .ok v → EndsIn y (FilledIn v) fun _ => True

namespace Persists

variable {x y : Except EvalError Value}

theorem refl (x : Except EvalError Value) : Persists x x := by
  rintro v rfl
  exact FilledIn.refl v

theorem of_ok {v w : Value} (h : FilledIn v w) : Persists (.ok v) (.ok w) := by
  intro u hu
  obtain rfl := Except.ok.inj hu
  exact h

/-- The unknown persists in whatever follows. -/
theorem of_unknown (y : Except EvalError Value) : Persists (.ok none) y := by
  intro v hv
  obtain rfl := Except.ok.inj hv
  exact (EndsIn.trivial y).mono (fun w _ => .none_left w) fun _ _ => True.intro

theorem bind {f g : Value → Except EvalError Value} (h : Persists x y)
    (hfg : ∀ v w, FilledIn v w → Persists (f v) (g w)) : Persists (x >>= f) (y >>= g) := by
  intro u hu
  obtain ⟨v, hv, hu⟩ := bind_eq_ok_iff.mp hu
  exact (h v hv).bind fun w hvw => hfg v w hvw u hu

end Persists

theorem persists_negate (at? : Option Position) {v w : Value} (h : FilledIn v w) :
    Persists (negate at? v) (negate at? w) := by
  rcases h with rfl | rfl
  · exact .of_unknown _
  · exact .refl _

theorem Comparison.persists_eval (c : Comparison) (at? : Option Position) {v v' w w' : Value}
    (hv : FilledIn v v') (hw : FilledIn w w') : Persists (c.eval at? v w) (c.eval at? v' w') := by
  rcases hv with rfl | rfl
  · exact .of_unknown _
  · rcases hw with rfl | rfl
    · cases v <;> exact .of_unknown _
    · exact .refl _

/-- The left operand may turn out to decide: then the right one is left
alone, and had decided in the same way if the result was known. -/
theorem Connective.persists_goOn (k : Connective) {v w : Value} (h : FilledIn v w)
    {right right' : Noticed EvalError Value} (hright : Persists right.outcome right'.outcome) :
    Persists (k.goOn v right).outcome (k.goOn w right').outcome := by
  by_cases hv : v.truth = some k.decisive
  · rw [k.goOn_of_decisive hv, k.goOn_of_decisive (h.truth.eq_some hv)]
    exact .refl _
  · rw [k.goOn_of_not_decisive hv, Run.outcome_bind]
    by_cases hw : w.truth = some k.decisive
    · -- the right operand was evaluated before: with the left one to decide, to no avail
      rw [k.goOn_of_decisive hw]
      intro u hu
      obtain ⟨u', -, hu⟩ := bind_eq_ok_iff.mp hu
      obtain rfl := Except.ok.inj hu
      have hdecided : k.join w.truth u'.truth = some k.decisive :=
        (k.join_eq_decisive_iff _ _).mpr (.inl hw)
      have hjoin := (k.filledIn_join h.truth (.refl u'.truth)).toValue
      rw [hdecided] at hjoin
      exact hjoin
    · rw [k.goOn_of_not_decisive hw, Run.outcome_bind]
      exact hright.bind fun u u' hu => .of_ok (k.filledIn_join h.truth hu.truth).toValue

/-! ## Expressions -/

section FilledIn

variable {r : Registry} {d d' : Json}

theorem persists_connective (k : Connective) {left right : Expr} (at? : Option Position)
    (hleft : Persists (left.eval r d).outcome (left.eval r d').outcome)
    (hright : Persists (right.eval r d).outcome (right.eval r d').outcome) :
    Persists ((Expr.binary k.op left right at?).eval r d).outcome
      ((Expr.binary k.op left right at?).eval r d').outcome := by
  rw [Expr.eval_connective, Expr.eval_connective, Run.outcome_bind, Run.outcome_bind]
  exact hleft.bind fun v w hvw => k.persists_goOn hvw hright

/-- By recursion on the expression. -/
theorem persists_eval : (e : Expr) → e.CallFree →
    (∀ path ∈ e.paths, FilledIn (d.resolve path) (d'.resolve path)) →
    Persists (e.eval r d).outcome (e.eval r d').outcome
  | .constant v _, _, _ => by
      rw [Expr.eval, Expr.eval]
      exact .refl _
  | .property _ segments _, _, hfilled => by
      rw [Expr.eval, Expr.eval]
      exact .of_ok (hfilled segments (by simp [Expr.paths]))
  | .unary .not e at?, hfree, hfilled => by
      rw [Expr.outcome_not, Expr.outcome_not]
      exact (persists_eval e hfree hfilled).bind fun v w hvw => persists_negate at? hvw
  | .unary (.misplaced _) e _, _, _ => by
      rw [Expr.eval, Expr.eval]
      exact .refl _
  | .binary op left right at?, ⟨hleft, hright⟩, hfilled => by
      have hl := persists_eval left hleft fun path hpath =>
        hfilled path (by simp [Expr.paths, hpath])
      have hr := persists_eval right hright fun path hpath =>
        hfilled path (by simp [Expr.paths, hpath])
      cases op with
      | compare c =>
          rw [Expr.outcome_compare, Expr.outcome_compare]
          exact hl.bind fun v v' hv => hr.bind fun w w' hw => c.persists_eval at? hv hw
      | and => exact persists_connective .and at? hl hr
      | or => exact persists_connective .or at? hl hr

end FilledIn

/-- **Undefined is not known yet.** An expression without calls keeps its
value when fields that were missing are filled in, unless its evaluation
fails then; and a document that it holds for, or does not hold for, keeps
this verdict. -/
theorem eval_filledIn {r : Registry} {d d' : Json} {e : Expr} (hfree : e.CallFree)
    (hfilled : ∀ path ∈ e.paths, d.resolve path = none ∨ d'.resolve path = d.resolve path) :
    (∀ v, (e.eval r d).outcome = .ok (some v) →
        EndsIn (e.eval r d').outcome (· = some v) fun _ => True) ∧
      ∀ v verdict, (e.eval r d).outcome = .ok v → v.truth = some verdict →
        EndsIn (e.eval r d').outcome (fun w => w.truth = some verdict) (fun _ => True) ∧
          EndsIn (e.holds r d').outcome (· = verdict) fun _ => True := by
  have hpersists := persists_eval (r := r) e hfree fun path hpath =>
    (hfilled path hpath).imp_right Eq.symm
  refine ⟨fun v hv => ?_, fun v verdict hv hverdict => ?_⟩
  · exact (hpersists _ hv).mono (fun w hw => hw.eq_some rfl) fun _ h => h
  · have htruth := (hpersists v hv).mono (fun w hw => hw.truth.eq_some hverdict) fun _ h => h
    refine ⟨htruth, ?_⟩
    rw [Expr.holds, Run.outcome_bind]
    refine htruth.bind fun w hw => ?_
    rw [hw]
    cases verdict <;> exact rfl

/-- A number comes to stand where a comparison was undefined. -/
theorem eval_filledIn_compared :
    let d : Json := .obj [("a", .bool false)]
    let d' : Json := .obj [("a", .bool false), ("b", .int 1)]
    let path (key : String) : Expr := .property key [key] none
    let compared : Expr := .binary (.compare .eq) (path "b") (.constant (some (.int 1)) none) none
    let e : Expr := .unary .not (.binary .and compared (path "a") none) none
    (compared.eval .standard d).outcome = .ok none ∧
      (e.eval .standard d).outcome = .ok (some (.bool true)) ∧
      EndsIn (e.eval .standard d').outcome (· = some (.bool true)) fun _ => True := by
  intro d d' path compared e
  have hcompared : (compared.eval .standard d).outcome = .ok none := by
    rw [Expr.outcome_compare, Expr.eval, Expr.eval]
    rfl
  have he : (e.eval .standard d).outcome = .ok (some (.bool true)) := by
    rw [Expr.outcome_not, ← Connective.op, Expr.eval_connective, Run.outcome_bind, hcompared,
      Expr.eval]
    rfl
  have hfree : e.CallFree := ⟨⟨trivial, trivial⟩, trivial⟩
  refine ⟨hcompared, he, (eval_filledIn hfree ?_).1 _ he⟩
  intro key hkey
  rcases List.mem_cons.mp hkey with rfl | hkey
  · exact .inl rfl
  · obtain rfl := List.mem_singleton.mp hkey
    exact .inr rfl

end DocStore
