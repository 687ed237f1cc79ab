import DocStore.Json.Path
import DocStore.Query.Notice

/-!
# Evaluating expressions

The value of an expression on a document. A missing property is
undefined and makes a comparison undefined; AND and OR are the
connectives of three-valued logic with undefined as the unknown, and
leave their right operand alone once the left one decides. After every
comparison a notice is sent.
-/

namespace DocStore

/-! ## Truth values -/

/-- A truth value: true, false or unknown. -/
abbrev Truth := Option Bool

namespace Truth

/-- False if either is, true if both are. -/
def and : Truth → Truth → Truth
  | some false, _ => some false
  | _, some false => some false
  | some true, some true => some true
  | _, _ => none

/-- True if either is, false if both are. -/
def or : Truth → Truth → Truth
  | some true, _ => some true
  | _, some true => some true
  | some false, some false => some false
  | _, _ => none

/-- A truth value as a value; the unknown is undefined. -/
def toValue (t : Truth) : Value :=
  t.map .bool

end Truth

/-! ## Comparisons -/

namespace Comparison

/-- The outcome of an ordering comparison from the order of its
operands. The two equalities do not go by order. -/
def holds : Comparison → Ordering → Bool
  | eq, o => o == .eq
  | ne, o => o != .eq
  | gt, o => o == .gt
  | ge, o => o != .lt
  | lt, o => o == .lt
  | le, o => o != .gt

/-- The value of a comparison of defined values. -/
def evalDefined (c : Comparison) (at? : Option Position) (v w : Json) : Except EvalError Bool :=
  match c with
  | eq => (v.equal w).mapError .overflow
  | ne => (v.equal w |>.map (!·)).mapError .overflow
  | c =>
      match v.compareOrdinal w with
      | .error e => .error (.overflow e)
      | .ok none => .error (.unsupportedComparison c v.kind w.kind at?)
      | .ok (some o) => .ok (c.holds o)

/-- The value of a comparison, undefined if an operand is. -/
def eval (c : Comparison) (at? : Option Position) : Value → Value → Except EvalError Value
  | some v, some w => (c.evalDefined at? v w).map fun b => some (.bool b)
  | _, _ => .ok none

end Comparison

/-- The negation of a value, which must be a boolean or undefined. -/
def negate (at? : Option Position) : Value → Except EvalError Value
  | none => .ok none
  | some (.bool b) => .ok (some (.bool !b))
  | some v => .error (.invalidOperand v.kind at?)

/-! ## Expressions -/

namespace Expr

mutual

/-- The value of an expression on a document. -/
def eval (r : Registry) (document : Json) : Expr → Noticed EvalError Value
  | constant v _ => pure v
  | property _ segments _ => pure (document.resolve segments)
  | unary .not e at? => do
      let v ← eval r document e
      Run.ofExcept (negate at? v)
  | unary (.misplaced op) _ at? => Run.fail (.unsupportedOperator op at?)
  | binary .and left right _ => do
      let v ← eval r document left
      if v.truth = some false then
        pure (some (.bool false))
      else
        let w ← eval r document right
        pure (Truth.and v.truth w.truth).toValue
  | binary .or left right _ => do
      let v ← eval r document left
      if v.truth = some true then
        pure (some (.bool true))
      else
        let w ← eval r document right
        pure (Truth.or v.truth w.truth).toValue
  | binary (.compare c) left right at? => do
      let v ← eval r document left
      let w ← eval r document right
      let result ← Run.ofExcept (c.eval at? v w)
      Run.notify (.comparison c v w result)
      pure result
  | call name args at? =>
      match r.lookup name with
      | none => Run.fail (.unknownFunction name at?)
      | some f =>
          if f.arity = args.length then do
            let vs ← evalArgs r document args
            Run.ofExcept ((f.run vs).mapError .call)
          else
            Run.fail (.wrongArity name f.arity args.length at?)

/-- The values of the arguments of a call, from left to right. -/
def evalArgs (r : Registry) (document : Json) : List Expr → Noticed EvalError (List Value)
  | [] => pure []
  | e :: es => do
      let v ← eval r document e
      let vs ← evalArgs r document es
      pure (v :: vs)

end

/-- The expression holds for the document: its value counts as true. -/
def holds (r : Registry) (e : Expr) (document : Json) : Noticed EvalError Bool := do
  let v ← e.eval r document
  pure (v.truth == some true)

end Expr

end DocStore
