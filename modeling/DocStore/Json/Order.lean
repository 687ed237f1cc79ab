import DocStore.Json.Basic
import DocStore.Text.Case
import DocStore.Text.Order

/-!
# Equality and order of values

Integers compare exactly, doubles by value, and an integer that meets a
double is first rounded to a double; one beyond the range of doubles
cannot be (`Overflow`). Texts compare in lower case. `valuesEqual` is
the equality of queries, where texts that stand alone ignore case and
texts inside arrays and objects do not; `compareOrdinal` orders numbers
and texts; `compareForSort` orders all values, first by the rank of
their kind.
-/

namespace DocStore

/-- An integer beyond the range of doubles met a double. -/
inductive Overflow where
  | integerTooLarge
deriving DecidableEq

def Overflow.message : Overflow → String
  | integerTooLarge => "int too large to convert to float"

/-- Three-way comparison of texts in lower case. -/
def compareTexts (a b : String) : Ordering :=
  Text.compareChars (Text.lower a.toList) (Text.lower b.toList)

/-- The double that an integer becomes when it meets a double. -/
def widen (n : Int) : Except Overflow Double :=
  match Double.ofInt? n with
  | some x => .ok x
  | none => .error .integerTooLarge

namespace Json

/-- Three-way comparison of numbers; NaN compares with nothing, nor do
values that are no numbers. -/
def compareNumbers : Json → Json → Except Overflow (Option Ordering)
  | int a, int b => .ok (some (compare a b))
  | int a, float y => return (← widen a).compare? y
  | float x, int b => return x.compare? (← widen b)
  | float x, float y => .ok (x.compare? y)
  | _, _ => .ok none

/-- The numbers are equal. -/
def numbersEqual (a b : Json) : Except Overflow Bool :=
  return (← compareNumbers a b) == some .eq

mutual

/-- Equality inside arrays and objects: texts exactly, objects whatever
the order of their fields, and never across kinds. -/
def deepEqual : Json → Json → Except Overflow Bool
  | null, null => .ok true
  | bool a, bool b => .ok (a == b)
  | int a, w => numbersEqual (int a) w
  | float x, w => numbersEqual (float x) w
  | str s, str t => .ok (s == t)
  | arr vs, arr ws => if vs.length = ws.length then deepEqualElements vs ws else .ok false
  | obj fs, obj gs =>
      if fs.all (fun f => Table.has gs f.1) && gs.all (fun g => Table.has fs g.1) then
        deepEqualFields fs gs
      else
        .ok false
  | _, _ => .ok false

/-- Arrays of one length are equal, element by element up to the first
difference. -/
def deepEqualElements : List Json → List Json → Except Overflow Bool
  | v :: vs, w :: ws => do
      if ← deepEqual v w then deepEqualElements vs ws else return false
  | _, _ => .ok true

/-- The fields have equal values in the other object, up to the first
difference. -/
def deepEqualFields : List (String × Json) → List (String × Json) → Except Overflow Bool
  | [], _ => .ok true
  | (k, v) :: fs, gs => do
      match Table.get? gs k with
      | none => return false
      | some w => if ← deepEqual v w then deepEqualFields fs gs else return false

end

/-- Equality of defined values in queries: as inside arrays and objects,
but texts ignore case. -/
def equal : Json → Json → Except Overflow Bool
  | str s, str t => .ok (Text.lower s.toList == Text.lower t.toList)
  | v, w => deepEqual v w

/-- Three-way comparison of two numbers or two texts, and of nothing
else. NaN ties with every number. -/
def compareOrdinal : Json → Json → Except Overflow (Option Ordering)
  | str s, str t => .ok (some (compareTexts s t))
  | v, w =>
      if v.kind = .number ∧ w.kind = .number then
        return some ((← compareNumbers v w).getD .eq)
      else
        .ok none

end Json

/-- Equality of values in queries; undefined equals undefined alone. -/
def valuesEqual : Value → Value → Except Overflow Bool
  | some v, some w => v.equal w
  | none, none => .ok true
  | _, _ => .ok false

/-- Three-way comparison of two numbers or two texts, and of nothing
else. -/
def compareOrdinal : Value → Value → Except Overflow (Option Ordering)
  | some v, some w => v.compareOrdinal w
  | _, _ => .ok none

/-- The ascending order of sort keys: by the rank of the kind, then
false before true, numbers and texts by `compareOrdinal`; values of any
other kind tie with their like. -/
def compareForSort (a b : Value) : Except Overflow Ordering :=
  if a.kind = b.kind then
    match a, b with
    | some (.bool x), some (.bool y) => .ok (compare x.toNat y.toNat)
    | _, _ => return (← compareOrdinal a b).getD .eq
  else
    .ok (compare a.kind.rank b.kind.rank)

/-- What a value counts for in a condition: a boolean is itself, null
counts as false, any other value as true; undefined stays undefined. -/
def Value.truth : Value → Option Bool
  | none => none
  | some (.bool b) => some b
  | some .null => some false
  | some _ => some true

end DocStore
