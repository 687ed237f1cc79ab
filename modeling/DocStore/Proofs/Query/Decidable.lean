import DocStore.Query.Statement
import Mathlib.Logic.Basic

/-!
# Deciding whether queries are the same

Values and expressions hold lists of their own kind, so whether two of
them are the same is decided part by part (`Json.alike`, `Expr.alike`).
Doubles are the same bit for bit, and objects with the same fields in the
same order.
-/

namespace DocStore

/-! ## Values -/

namespace Json

mutual

def alike : Json → Json → Bool
  | null, null => true
  | bool b, bool c => b == c
  | int m, int n => m == n
  | float x, float y => decide (x = y)
  | str s, str t => s == t
  | arr vs, arr ws => alikeElements vs ws
  | obj fs, obj gs => alikeFields fs gs
  | _, _ => false

def alikeElements : List Json → List Json → Bool
  | [], [] => true
  | v :: vs, w :: ws => alike v w && alikeElements vs ws
  | _, _ => false

def alikeFields : List (String × Json) → List (String × Json) → Bool
  | [], [] => true
  | (key, v) :: fs, (key', w) :: gs => key == key' && alike v w && alikeFields fs gs
  | _, _ => false

end

mutual

theorem alike_iff (v w : Json) : v.alike w = true ↔ v = w := by
  cases v with
  | arr vs => cases w <;> simp [alike, alikeElements_iff vs]
  | obj fs => cases w <;> simp [alike, alikeFields_iff fs]
  | _ => cases w <;> simp [alike]

theorem alikeElements_iff (vs ws : List Json) : alikeElements vs ws = true ↔ vs = ws := by
  cases vs with
  | nil => cases ws <;> simp [alikeElements]
  | cons v vs => cases ws <;> simp [alikeElements, alike_iff v, alikeElements_iff vs]

theorem alikeFields_iff (fs gs : List (String × Json)) : alikeFields fs gs = true ↔ fs = gs := by
  match fs, gs with
  | [], [] | [], _ :: _ | _ :: _, [] => simp [alikeFields]
  | (key, v) :: fs, (key', w) :: gs =>
      simp [alikeFields, alike_iff v w, alikeFields_iff fs gs]

end

instance : DecidableEq Json := fun v w => decidable_of_iff _ (alike_iff v w)

end Json

/-! ## Expressions -/

namespace Expr

mutual

def alike : Expr → Expr → Bool
  | constant v p, constant w q => decide (v = w ∧ p = q)
  | property path segments p, property path' segments' q =>
      decide (path = path' ∧ segments = segments' ∧ p = q)
  | unary op e p, unary op' f q => decide (op = op') && alike e f && decide (p = q)
  | binary op l r p, binary op' l' r' q =>
      decide (op = op') && alike l l' && alike r r' && decide (p = q)
  | call name args p, call name' args' q =>
      decide (name = name') && alikeArgs args args' && decide (p = q)
  | _, _ => false

def alikeArgs : List Expr → List Expr → Bool
  | [], [] => true
  | e :: es, f :: fs => alike e f && alikeArgs es fs
  | _, _ => false

end

mutual

theorem alike_iff (e f : Expr) : e.alike f = true ↔ e = f := by
  cases e with
  | constant v p => cases f <;> simp [alike]
  | property path segments p => cases f <;> simp [alike]
  | unary op e p => cases f <;> simp [alike, alike_iff e, and_assoc]
  | binary op l r p => cases f <;> simp [alike, alike_iff l, alike_iff r, and_assoc]
  | call name args p => cases f <;> simp [alike, alikeArgs_iff args, and_assoc]

theorem alikeArgs_iff (es fs : List Expr) : alikeArgs es fs = true ↔ es = fs := by
  cases es with
  | nil => cases fs <;> simp [alikeArgs]
  | cons e es => cases fs <;> simp [alikeArgs, alike_iff e, alikeArgs_iff es]

end

instance : DecidableEq Expr := fun e f => decidable_of_iff _ (alike_iff e f)

end Expr

/-- Queries are the same if their parts are. -/
instance : DecidableEq Query
  | ⟨text, projection, container, alias?, where?, orderBy, limit⟩,
    ⟨text', projection', container', alias?', where?', orderBy', limit'⟩ =>
      decidable_of_iff (text = text' ∧ projection = projection' ∧ container = container' ∧
        alias? = alias?' ∧ where? = where?' ∧ orderBy = orderBy' ∧ limit = limit')
        (by rw [Query.mk.injEq])

end DocStore
