/-!
# Binary64 numbers

A double is its 64 bits. `Double.view` says what the bits stand for: a
finite double is `± significand * 2 ^ exponent`, hence an integer
multiple of `2 ^ -1074` (`Double.units?`), so comparison and truncation
are exact integer arithmetic. `Double.nearest` rounds a quotient to the
nearest double, a half to the even significand; integers (`ofInt?`) and
decimals (`ofDecimal`) are read through it.
-/

namespace DocStore

/-- An IEEE 754 binary64 number. -/
structure Double where
  bits : UInt64
deriving DecidableEq

namespace Double

/-- What the bits of a double stand for. -/
inductive View where
  | nan
  | infinite (negative : Bool)
  | finite (negative : Bool) (significand : Nat) (exponent : Int)
deriving DecidableEq

/-- The view of a double from its sign bit, its exponent field and its
fraction field. -/
def view (x : Double) : View :=
  let n := x.bits.toNat
  let negative := n / Nat.pow 2 63 % 2 == 1
  let field : Nat := n / Nat.pow 2 52 % Nat.pow 2 11
  let fraction : Nat := n % Nat.pow 2 52
  if field = 2047 then
    if fraction = 0 then .infinite negative else .nan
  else if field = 0 then
    .finite negative fraction (-1074)
  else
    .finite negative (Nat.pow 2 52 + fraction) ((field : Int) - 1075)

/-- The double with the given sign and the given bits below the sign
bit. -/
def ofParts (negative : Bool) (magnitude : Nat) : Double :=
  ⟨UInt64.ofNat ((if negative then Nat.pow 2 63 else 0) + magnitude)⟩

def nan : Double := ofParts false (2047 * Nat.pow 2 52 + Nat.pow 2 51)

def infinity (negative : Bool) : Double := ofParts negative (2047 * Nat.pow 2 52)

def zero (negative : Bool) : Double := ofParts negative 0

/-! ## Rounding -/

/-- The quotient rounded to an integer, a half to the even neighbour. -/
def roundDiv (num den : Nat) : Nat :=
  let q := num / den
  match compare (2 * (num % den)) den with
  | .lt => q
  | .gt => q + 1
  | .eq => if q % 2 = 0 then q else q + 1

/-- `n * 2 ^ e`, with the part of `e` of the other sign dropped. -/
def scaleUp (n : Nat) (e : Int) : Nat :=
  n * Nat.pow 2 e.toNat

/-- `n * 10 ^ e`, with the part of `e` of the other sign dropped. -/
def scaleUpDecimal (n : Nat) (e : Int) : Nat :=
  n * Nat.pow 10 e.toNat

/-- The `k` with `2 ^ k ≤ num / den < 2 ^ (k + 1)`, for positive `num`
and `den`. -/
def binaryOrder (num den : Nat) : Int :=
  let k : Int := (num.log2 : Int) - den.log2
  if scaleUp num (-k) < scaleUp den k then k - 1 else k

/-- The double `significand * 2 ^ exponent`, for a significand of at
most `2 ^ 53` and an exponent that is `-1074` unless the significand is
`2 ^ 52` or more. -/
def pack (negative : Bool) (significand : Nat) (exponent : Int) : Double :=
  let magnitude := (exponent + 1074).toNat * Nat.pow 2 52 + significand
  if 2047 * Nat.pow 2 52 ≤ magnitude then infinity negative else ofParts negative magnitude

/-- The double nearest to `± num / den`, a half to the even significand;
infinite from halfway beyond the largest finite double on. -/
def nearest (negative : Bool) (num den : Nat) : Double :=
  if num = 0 then
    zero negative
  else
    let e := max (binaryOrder num den - 52) (-1074)
    pack negative (roundDiv (scaleUp num (-e)) (scaleUp den e)) e

/-- The double nearest to `± digits * 10 ^ exponent`. Decimals beyond
the range of doubles are told apart by their size alone, so the powers
of ten stay small. -/
def ofDecimal (negative : Bool) (digits : Nat) (exponent : Int) : Double :=
  if digits = 0 then
    zero negative
  else if 310 ≤ exponent then
    infinity negative
  else if exponent < -(330 + digits.log2 : Int) then
    zero negative
  else
    nearest negative (scaleUpDecimal digits exponent) (scaleUpDecimal 1 (-exponent))

/-- The double nearest to an integer, if it is finite. -/
def ofInt? (n : Int) : Option Double :=
  let x := nearest (n < 0) n.natAbs 1
  match x.view with
  | .finite .. => some x
  | _ => none

/-- The double nearest to a count. -/
def ofNat (n : Nat) : Double :=
  nearest false n 1

/-! ## Order -/

/-- A finite double as a multiple of `2 ^ -1074`. -/
def View.units? : View → Option Int
  | .finite negative significand exponent =>
      let n : Int := scaleUp significand (exponent + 1074)
      some (if negative then -n else n)
  | _ => none

/-- A key that orders all doubles but NaN by value: the infinities lie
outside all finite ones. -/
def View.orderKey? : View → Option (Int × Int)
  | .nan => none
  | .infinite negative => some (if negative then -1 else 1, 0)
  | v => v.units?.map (0, ·)

/-- Three-way comparison by value; NaN compares with nothing. -/
def compare? (x y : Double) : Option Ordering :=
  match x.view.orderKey?, y.view.orderKey? with
  | some a, some b => some ((compare a.1 b.1).then (compare a.2 b.2))
  | _, _ => none

/-- The number of units in one. -/
def unitsInOne : Nat := Nat.pow 2 1074

/-- A finite double without its fraction. -/
def truncate? (x : Double) : Option Int :=
  x.view.units?.map (·.tdiv unitsInOne)

/-- A finite double rounded down to an integer. -/
def floor? (x : Double) : Option Int :=
  x.view.units?.map (·.fdiv unitsInOne)

/-- A finite double that is an integer. -/
def toInt? (x : Double) : Option Int :=
  x.view.units?.bind fun n =>
    if n.tmod unitsInOne = 0 then some (n.tdiv unitsInOne) else none

/-- The product with `2 ^ k`; exact unless it is beyond the finite
doubles. -/
def scaleByPowerOfTwo (x : Double) (k : Nat) : Double :=
  match x.view with
  | .finite negative m e => nearest negative (scaleUp m (e + k)) (scaleUp 1 (-(e + k)))
  | _ => x

/-- The product with a count, rounded to the nearest double. -/
def timesNat (x : Double) (k : Nat) : Double :=
  match x.view with
  | .finite negative m e => nearest negative (scaleUp (m * k) e) (scaleUp 1 (-e))
  | _ => x

/-- The quotient by a count, rounded to the nearest double. -/
def overNat (x : Double) (k : Nat) : Double :=
  match x.view with
  | .finite negative m e => nearest negative (scaleUp m e) (scaleUp k (-e))
  | _ => x

/-- The product of finite doubles, rounded to the nearest double; an
infinite factor stays. -/
def times (x y : Double) : Double :=
  match x.view, y.view with
  | .finite s m e, .finite t n f =>
      nearest (s != t) (scaleUp (m * n) (e + f)) (scaleUp 1 (-(e + f)))
  | .finite .., _ => y
  | _, _ => x

/-- The sum of finite doubles, rounded to the nearest double; an
infinite part stays. -/
def plus (x y : Double) : Double :=
  match x.view.units?, y.view.units? with
  | some m, some n => nearest (m + n < 0) (m + n).natAbs unitsInOne
  | some _, none => y
  | none, _ => x

/-- The double with the other sign. -/
def negate (x : Double) : Double :=
  ⟨x.bits ^^^ UInt64.ofNat (Nat.pow 2 63)⟩

/-- A finite double rounded to an integer, a half to the even
neighbour. -/
def round? (x : Double) : Option Int :=
  x.view.units?.map fun n =>
    let r : Int := roundDiv n.natAbs unitsInOne
    if n < 0 then -r else r

/-- Not a number. -/
def isNaN (x : Double) : Bool :=
  x.view == .nan

/-- Either zero. -/
def isZero (x : Double) : Bool :=
  x.view.units? == some 0

end Double

end DocStore
