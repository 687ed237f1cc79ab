import DocStore.Number.Notation

/-!
# Numbers with fixed places

A finite double with a fixed number of digits behind the point, a half
rounded to the even neighbour. Without such digits there is no point.
-/

namespace DocStore

/-- A count of units of `10 ^ -places` as a decimal. -/
def fixedDigits (places n : Nat) : List Char :=
  let ds := padZeros (places + 1) (Nat.toDigits 10 n)
  if places = 0 then ds
  else ds.take (ds.length - places) ++ '.' :: ds.drop (ds.length - places)

/-- A double with the given number of digits behind the point. -/
def Double.fixed (names : SpecialNames) (places : Nat) (x : Double) : String :=
  match x.view with
  | .finite negative m e =>
      let n :=
        Double.roundDiv (Double.scaleUp (Double.scaleUpDecimal m places) e) (Double.scaleUp 1 (-e))
      String.ofList (if negative then '-' :: fixedDigits places n else fixedDigits places n)
  | _ => x.render names

end DocStore
