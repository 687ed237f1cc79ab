/-!
# Sorted runs

A comparison that may fail sorts the head of a list in two steps: the
run that is in order already, or in strictly reverse order and then
turned round, is kept (`splitRun`), and every further element is
inserted behind all that are not greater, its place being found by
halving (`insertAll`). Which pairs are compared is part of the outcome,
as any comparison may fail.
-/

namespace DocStore.Sorting

variable {ε α : Type}

/-! ## Runs -/

/-- Splits off the elements that go on in order, none less than the one
before. -/
def splitAscending (less : α → α → Except ε Bool) (last : α) :
    List α → Except ε (List α × List α)
  | [] => .ok ([], [])
  | x :: rest => do
      if ← less x last then
        return ([], x :: rest)
      else
        let (run, left) ← splitAscending less x rest
        return (x :: run, left)

/-- Splits off the elements that go on in reverse order, each less than
the one before. -/
def splitDescending (less : α → α → Except ε Bool) (last : α) :
    List α → Except ε (List α × List α)
  | [] => .ok ([], [])
  | x :: rest => do
      if ← less x last then
        let (run, left) ← splitDescending less x rest
        return (x :: run, left)
      else
        return ([], x :: rest)

/-- The sorted run at the head of a list, and the rest. -/
def splitRun (less : α → α → Except ε Bool) : List α → Except ε (List α × List α)
  | x :: y :: rest => do
      if ← less y x then
        let (run, left) ← splitDescending less y rest
        return ((x :: y :: run).reverse, left)
      else
        let (run, left) ← splitAscending less y rest
        return (x :: y :: run, left)
  | xs => .ok (xs, [])

/-! ## Insertion -/

/-- The place between `low` and `high` behind all elements that are not
greater, found by halving; `fuel` bounds the number of steps. -/
def place (less : α → α → Except ε Bool) (x : α) (sorted : List α) :
    Nat → Nat → Nat → Except ε Nat
  | 0, low, _ => .ok low
  | fuel + 1, low, high =>
      if low < high then
        let middle := low + (high - low) / 2
        match sorted[middle]? with
        | none => .ok low
        | some y => do
            if ← less x y then place less x sorted fuel low middle
            else place less x sorted fuel (middle + 1) high
      else
        .ok low

/-- Inserts an element into a sorted list. -/
def insert (less : α → α → Except ε Bool) (sorted : List α) (x : α) : Except ε (List α) := do
  let i ← place less x sorted (sorted.length + 1) 0 sorted.length
  return sorted.take i ++ x :: sorted.drop i

/-- Inserts elements one after the other. -/
def insertAll (less : α → α → Except ε Bool) (sorted : List α) : List α → Except ε (List α)
  | [] => .ok sorted
  | x :: rest => do
      let sorted ← insert less sorted x
      insertAll less sorted rest

/-- A sorted run made from the head of a list, and the rest: a run that
is shorter than wanted is filled up by insertion. -/
def nextRun (less : α → α → Except ε Bool) (wanted : Nat) (xs : List α) :
    Except ε (List α × List α) := do
  let (run, rest) ← splitRun less xs
  let missing := wanted - run.length
  return (← insertAll less run (rest.take missing), rest.drop missing)

end DocStore.Sorting
