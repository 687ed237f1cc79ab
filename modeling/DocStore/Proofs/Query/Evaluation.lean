import DocStore.Proofs.Json.Overflow
import DocStore.Proofs.Run
import DocStore.Query.Evaluation

/-!
# What evaluation comes to

An expression is callable if no operator stands where it has no meaning
and every function is called with the arguments that it takes
(`Expr.Callable`). Evaluation then takes a few kinds of steps: it looks
up constants and properties, negates, compares, joins truth values and
runs functions. What holds of the values that go into such a step and of
those that come out, or of the errors, holds of the value of the whole
expression, or of its error (`EvalInvariant.endsIn_eval`).
-/

namespace DocStore

namespace Expr

mutual

/-- The constants of an expression. -/
def constants : Expr → List Value
  | constant v _ => [v]
  | property _ _ _ => []
  | unary _ e _ => constants e
  | binary _ l r _ => constants l ++ constants r
  | call _ args _ => constantsAll args

def constantsAll : List Expr → List Value
  | [] => []
  | e :: es => constants e ++ constantsAll es

end

mutual

/-- No operator stands where it has no meaning, and every function is
called with as many arguments as it takes. -/
def Callable (r : Registry) : Expr → Prop
  | constant _ _ | property _ _ _ => True
  | unary op e _ => op = .not ∧ Callable r e
  | binary _ left right _ => Callable r left ∧ Callable r right
  | call name args _ => (∃ f, r.lookup name = some f ∧ f.arity = args.length) ∧ CallableAll r args

def CallableAll (r : Registry) : List Expr → Prop
  | [] => True
  | e :: es => Callable r e ∧ CallableAll r es

end

end Expr

/-! ## Steps -/

theorem truth_toValue (t : Truth) : t.toValue.truth = t := by
  cases t <;> rfl

theorem endsIn_negate (at? : Option Position) (v : Value) :
    EndsIn (negate at? v) (fun w => ∃ t : Truth, w = t.toValue)
      fun e => ∃ kind, e = .invalidOperand kind at? := by
  unfold negate
  split
  · exact ⟨none, rfl⟩
  · rename_i b
    exact ⟨some !b, rfl⟩
  · exact ⟨_, rfl⟩

/-- Values have no order, or numbers inside them clash. -/
theorem endsIn_evalDefined (c : Comparison) (at? : Option Position) (v w : Json) :
    EndsIn (c.evalDefined at? v w) (fun _ => True) fun e =>
      (∃ cause, e = .overflow cause ∧ Clashes v w) ∨
        ∃ left right, e = .unsupportedComparison c left right at? := by
  have hequal := endsIn_equal v w
  have hordinal := endsIn_compareOrdinal v w
  unfold Comparison.evalDefined
  split
  · exact hequal.mapError fun cause h => .inl ⟨cause, rfl, h.clashes⟩
  · exact (hequal.map fun _ h => h).mapError fun cause h => .inl ⟨cause, rfl, h.clashes⟩
  · split
    · rename_i cause hcause
      exact .inl ⟨cause, rfl, clashes_of_overflows (hordinal.of_error hcause)⟩
    · exact .inr ⟨_, _, rfl⟩
    · exact trivial

/-- The operators that join truth values. -/
inductive Connective where
  | and
  | or
deriving DecidableEq

namespace Connective

def op : Connective → BinaryOp
  | and => .and
  | or => .or

/-- The truth value of an operand that decides. -/
def decisive : Connective → Bool
  | and => false
  | or => true

def join : Connective → Truth → Truth → Truth
  | and => Truth.and
  | or => Truth.or

theorem join_eq_decisive_iff (k : Connective) (s t : Truth) :
    k.join s t = some k.decisive ↔ s = some k.decisive ∨ t = some k.decisive := by
  cases k <;> rcases s with _ | _ | _ <;> rcases t with _ | _ | _ <;> decide

/-- What is done once the left operand has a value: it decides, or the
right operand is evaluated. -/
def goOn (k : Connective) (v : Value) (right : Noticed EvalError Value) :
    Noticed EvalError Value :=
  if v.truth = some k.decisive then
    pure (some (.bool k.decisive))
  else do
    let w ← right
    pure (k.join v.truth w.truth).toValue

theorem goOn_of_decisive (k : Connective) {v : Value} (h : v.truth = some k.decisive)
    (right : Noticed EvalError Value) : k.goOn v right = pure (some (.bool k.decisive)) :=
  if_pos h

theorem goOn_of_not_decisive (k : Connective) {v : Value} (h : v.truth ≠ some k.decisive)
    (right : Noticed EvalError Value) :
    k.goOn v right = right >>= fun w => pure (k.join v.truth w.truth).toValue :=
  if_neg h

end Connective

/-! ## Expressions -/

namespace Expr

variable (r : Registry) (document : Json)

theorem outcome_not (e : Expr) (at? : Option Position) :
    ((unary .not e at?).eval r document).outcome =
      (e.eval r document).outcome >>= negate at? := by
  rw [eval, Run.outcome_bind]
  rfl

theorem outcome_compare (c : Comparison) (left right : Expr) (at? : Option Position) :
    ((binary (.compare c) left right at?).eval r document).outcome =
      (left.eval r document).outcome >>= fun v =>
        (right.eval r document).outcome >>= fun w => c.eval at? v w := by
  rw [eval, Run.outcome_bind]
  refine bind_congr fun v => ?_
  rw [Run.outcome_bind]
  refine bind_congr fun w => ?_
  rw [Run.outcome_bind]
  exact bind_ok _

theorem eval_connective (k : Connective) (left right : Expr) (at? : Option Position) :
    (binary k.op left right at?).eval r document =
      left.eval r document >>= fun v => k.goOn v (right.eval r document) := by
  cases k <;> rw [Connective.op, eval] <;> rfl

end Expr

/-- What holds of the values that evaluation comes by, and of the errors
that it ends in: each step, from values of which it holds, leads to a
value or an error of which it holds. -/
structure EvalInvariant (r : Registry) (document : Json) (good : Value → Prop)
    (bad : EvalError → Prop) : Prop where
  property : ∀ segments, good (document.resolve segments)
  truth : ∀ t : Truth, good t.toValue
  negate : ∀ at? v, good v → EndsIn (negate at? v) good bad
  compare : ∀ (c : Comparison) at? v w, good v → good w → EndsIn (c.eval at? v w) good bad
  run : ∀ name f vs, r.lookup name = some f → f.arity = vs.length → (∀ v ∈ vs, good v) →
    EndsIn ((f.run vs).mapError .call) good bad

namespace EvalInvariant

variable {r : Registry} {document : Json} {good : Value → Prop} {bad : EvalError → Prop}

theorem endsIn_connective (h : EvalInvariant r document good bad) (k : Connective)
    {left right : Expr} (at? : Option Position)
    (hleft : EndsIn (left.eval r document).outcome good bad)
    (hright : EndsIn (right.eval r document).outcome good bad) :
    EndsIn ((Expr.binary k.op left right at?).eval r document).outcome good bad := by
  rw [Expr.eval_connective, Run.outcome_bind]
  refine hleft.bind fun v _ => ?_
  by_cases hdecisive : v.truth = some k.decisive
  · rw [k.goOn_of_decisive hdecisive]
    exact h.truth (some k.decisive)
  · rw [k.goOn_of_not_decisive hdecisive, Run.outcome_bind]
    exact hright.bind fun w _ => h.truth _

mutual

/-- By recursion on the expression. -/
theorem endsIn_eval (h : EvalInvariant r document good bad) : (e : Expr) →
    (∀ v ∈ e.constants, good v) → e.Callable r → EndsIn (e.eval r document).outcome good bad
  | .constant v _, hgood, _ => by
      rw [Expr.eval]
      exact hgood v (by simp [Expr.constants])
  | .property _ segments _, _, _ => by
      rw [Expr.eval]
      exact h.property segments
  | .unary op e at?, hgood, hcallable => by
      obtain ⟨rfl, hcallable⟩ := hcallable
      rw [Expr.outcome_not]
      exact (endsIn_eval h e hgood hcallable).bind fun v hv => h.negate at? v hv
  | .binary op left right at?, hgood, ⟨hleft, hright⟩ => by
      have hl := endsIn_eval h left (fun v hv => hgood v (by simp [Expr.constants, hv])) hleft
      have hr := endsIn_eval h right (fun v hv => hgood v (by simp [Expr.constants, hv])) hright
      cases op with
      | compare c =>
          rw [Expr.outcome_compare]
          exact hl.bind fun v hv => hr.bind fun w hw => h.compare c at? v w hv hw
      | and => exact h.endsIn_connective .and at? hl hr
      | or => exact h.endsIn_connective .or at? hl hr
  | .call name args at?, hgood, ⟨⟨f, hf, harity⟩, hargs⟩ => by
      rw [Expr.eval]
      simp only [hf, if_pos harity, Run.outcome_bind]
      refine (endsIn_evalArgs h args hgood hargs).bind fun vs hvs => ?_
      exact h.run name f vs hf (by rw [harity, hvs.1]) hvs.2

theorem endsIn_evalArgs (h : EvalInvariant r document good bad) : (args : List Expr) →
    (∀ v ∈ Expr.constantsAll args, good v) → Expr.CallableAll r args →
    EndsIn (Expr.evalArgs r document args).outcome
      (fun vs => vs.length = args.length ∧ ∀ v ∈ vs, good v) bad
  | [], _, _ => by
      rw [Expr.evalArgs]
      exact ⟨rfl, by simp⟩
  | e :: es, hgood, ⟨he, hes⟩ => by
      rw [Expr.evalArgs, Run.outcome_bind]
      refine (endsIn_eval h e (fun v hv => hgood v (by simp [Expr.constantsAll, hv])) he).bind
        fun v hv => ?_
      rw [Run.outcome_bind]
      refine (endsIn_evalArgs h es (fun v hv => hgood v (by simp [Expr.constantsAll, hv])) hes).bind
        fun vs hvs => ?_
      exact ⟨by simp [hvs.1], by simpa using ⟨hv, hvs.2⟩⟩

end

end EvalInvariant

end DocStore
