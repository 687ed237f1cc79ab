import DocStore.Number.Shortest

/-!
# Number notation

How numbers are written: integers in full, doubles with the fewest
digits that read back, positionally from `0.0001` up to below `10 ^ 16`
and otherwise with a signed exponent of at least two digits. A double
always shows a point or an exponent, so it never reads as an integer.
-/

namespace DocStore

/-- The texts of the doubles that are no numbers. -/
structure SpecialNames where
  nan : String
  infinity : String

/-- An integer in decimal digits. -/
def intDigits (n : Int) : List Char :=
  if n < 0 then '-' :: Nat.toDigits 10 n.natAbs else Nat.toDigits 10 n.natAbs

/-- An integer in decimal digits. -/
def intText (n : Int) : String :=
  String.ofList (intDigits n)

/-- A count in decimal digits. -/
def natText (n : Nat) : String :=
  String.ofList (Nat.toDigits 10 n)

/-- Digits filled up with zeros on the left to the given width. -/
def padZeros (width : Nat) (ds : List Char) : List Char :=
  List.replicate (width - ds.length) '0' ++ ds

namespace Decimal

/-- The decimal with its point inside, before or after its digits. -/
def positional (ds : List Char) (leading : Int) : List Char :=
  if leading < 0 then
    '0' :: '.' :: List.replicate (-leading - 1).toNat '0' ++ ds
  else if ds.length ≤ leading.toNat + 1 then
    ds ++ List.replicate (leading.toNat + 1 - ds.length) '0' ++ ['.', '0']
  else
    ds.take (leading.toNat + 1) ++ '.' :: ds.drop (leading.toNat + 1)

/-- The decimal with one digit before the point and an exponent. -/
def scientific (ds : List Char) (leading : Int) : List Char :=
  let fraction := if ds.length ≤ 1 then [] else '.' :: ds.drop 1
  let sign := if leading < 0 then '-' else '+'
  ds.take 1 ++ fraction ++ 'e' :: sign :: padZeros 2 (Nat.toDigits 10 leading.natAbs)

/-- The decimal as written, `leading` being the exponent of its first
digit. -/
def layout (d : Decimal) : List Char :=
  let ds := Nat.toDigits 10 d.digits
  let leading := d.exponent + ds.length - 1
  if -4 ≤ leading ∧ leading < 16 then positional ds leading else scientific ds leading

end Decimal

/-- A double as written. -/
def Double.render (names : SpecialNames) (x : Double) : String :=
  match x.view with
  | .nan => names.nan
  | .infinite negative => (if negative then "-" else "") ++ names.infinity
  | .finite negative m e =>
      let magnitude := if m = 0 then ['0', '.', '0'] else (Decimal.shortest m e).layout
      String.ofList (if negative then '-' :: magnitude else magnitude)

end DocStore
