import DocStore.Number.Double

/-!
# Shortest decimals

The reals that round to a double form an interval around it, with its
ends if the significand is even. `shortest` is the decimal in that
interval with the fewest digits and, of those, the one nearest to the
double, a tie to the even digit. It is found on the grids of one digit,
two digits, and so on: a grid has a point in the interval only if one of
the double's two neighbours on it lies there.
-/

namespace DocStore

/-- The number `digits * 10 ^ exponent`. -/
structure Decimal where
  digits : Nat
  exponent : Int
deriving DecidableEq

namespace Decimal

open Double

/-- Compares `a * 10 ^ i` with `n * 2 ^ j`. -/
def compareBinary (a : Nat) (i : Int) (n : Nat) (j : Int) : Ordering :=
  compare (scaleUp (scaleUpDecimal a i) (-j)) (scaleUpDecimal (scaleUp n j) (-i))

/-- The decimal rounds to the double `m * 2 ^ e`. Below a power of two
the gap to the next double is half as wide as above it, except for the
least normal double. -/
def readsBack (m : Nat) (e : Int) (d : Decimal) : Bool :=
  let low := if m = Nat.pow 2 52 ∧ -1074 < e then 4 * m - 1 else 4 * m - 2
  let fromLow := compareBinary d.digits d.exponent low (e - 2)
  let fromHigh := compareBinary d.digits d.exponent (4 * m + 2) (e - 2)
  if m % 2 = 0 then
    fromLow != .lt && fromHigh != .gt
  else
    fromLow == .gt && fromHigh == .lt

/-- The least `k` with `m * 2 ^ e < 10 ^ k`: an estimate from the binary
order, corrected. -/
def decimalOrder (m : Nat) (e : Int) : Int :=
  let estimate := (((m.log2 : Int) + e) * 30103).fdiv 100000 - 1
  let candidates := (List.range 5).map fun (i : Nat) => estimate + i
  (candidates.find? fun k => compareBinary 1 k m e == .gt).getD estimate

/-- The decimal on the grid of `10 ^ g` that is nearest to the double
among those of its two neighbours there that read back. -/
def onGrid? (m : Nat) (e g : Int) : Option Decimal :=
  let below :=
    scaleUpDecimal (scaleUp m e) (-g) / scaleUpDecimal (scaleUp 1 (-e)) g
  let lower : Decimal := ⟨below, g⟩
  let upper : Decimal := ⟨below + 1, g⟩
  match readsBack m e lower, readsBack m e upper with
  | false, false => none
  | true, false => some lower
  | false, true => some upper
  | true, true =>
      match compareBinary (2 * below + 1) g m (e + 1) with
      | .gt => some lower
      | .lt => some upper
      | .eq => some (if below % 2 = 0 then lower else upper)

/-- Moves trailing zeros of the digits, at most `fuel` of them, into the
exponent. -/
def stripZeros : Nat → Decimal → Decimal
  | 0, d => d
  | fuel + 1, d =>
      if d.digits ≠ 0 ∧ d.digits % 10 = 0 then
        stripZeros fuel ⟨d.digits / 10, d.exponent + 1⟩
      else
        d

/-- The value of `m * 2 ^ e` with all its digits. -/
def exact (m : Nat) (e : Int) : Decimal :=
  if 0 ≤ e then ⟨scaleUp m e, 0⟩ else ⟨m * Nat.pow 5 (-e).toNat, e⟩

/-- The shortest decimal that reads back to the double `m * 2 ^ e`, for
a positive `m`. -/
def shortest (m : Nat) (e : Int) : Decimal :=
  let k := decimalOrder m e
  match (List.range 17).findSome? fun (i : Nat) => onGrid? m e (k - (i + 1)) with
  | some d => stripZeros 18 d
  | none => exact m e

end Decimal

end DocStore
