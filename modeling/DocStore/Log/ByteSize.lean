import DocStore.Text.Case
import DocStore.Text.NumeralError

/-!
# Byte sizes

A size is an integer, or a decimal number and a unit: `B`, `KB`, `MB` or
`GB`, each 1024 times the one before, in any case. A decimal number of
units is rounded to a double and then loses its fraction, so `1.9B` is
one byte.
-/

namespace DocStore

namespace ByteSize

/-- The units with the binary orders of their sizes, the longer names
first: `B` ends them all. -/
def units : List (List Char × Nat) :=
  [(['G', 'B'], 30), (['M', 'B'], 20), (['K', 'B'], 10), (['B'], 0)]

/-- The number in front of a unit, and the binary order of the unit. -/
def splitUnit? (cs : List Char) : Option (List Char × Nat) :=
  units.findSome? fun (name, order) =>
    if name.isSuffixOf cs then some (cs.take (cs.length - name.length), order) else none

/-- A double without its fraction. -/
def truncate (x : Double) : Except Text.NumeralError Int :=
  match x.truncate? with
  | some n => .ok n
  | none => .error (if x.isNaN then .notANumber else .infinite)

/-- A size in bytes. -/
def parse (text : String) : Except Text.NumeralError Int :=
  let cs := Text.strip (Text.upper text.toList)
  match splitUnit? cs with
  | none => Text.integer cs
  | some (number, order) =>
      let number := Text.strip number
      match Text.readDouble? number with
      | none => .error (.malformedNumber (String.ofList number))
      | some x => truncate (x.scaleByPowerOfTwo order)

end ByteSize

end DocStore
