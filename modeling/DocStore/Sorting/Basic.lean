import DocStore.Sorting.Insertion
import DocStore.Sorting.Merge

/-!
# Stable sorting

A list is cut into sorted runs, which are merged (`sort`). Runs wait on
a stack until their turn comes: the boundary between two runs lies at
some depth of a binary tree over the whole list (`boundaryDepth`), and
boundaries are removed from the deepest one up.
-/

namespace DocStore.Sorting

variable {ε α : Type}

/-- The shortest run that is merged with others: the leading six binary
digits of the length of the list, rounded up, so that the number of runs
is close to a power of two. -/
def shortestRun (length : Nat) (roundUp : Nat) : Nat :=
  if length < 64 then length + roundUp
  else shortestRun (length / 2) (if length % 2 = 1 then 1 else roundUp)
termination_by length

/-- The depth of the boundary between two neighbouring runs of a list:
at how many binary digits the positions of their middles, as fractions
of the whole, differ first. -/
def boundaryDepth (length start leftLength rightLength : Nat) : Nat :=
  let left := 2 * start + leftLength
  let right := left + leftLength + rightLength
  let differ (k : Nat) : Bool :=
    Nat.pow 2 k * left / length != Nat.pow 2 k * right / length
  ((List.range (length.log2 + 2)).find? differ).getD 0 + 1

/-- A run that waits to be merged, and the depth of the boundary to the
run below it. -/
structure Pending (α : Type) where
  run : List α
  depth : Nat

/-- The number of elements in waiting runs. -/
def totalLength (stack : List (Pending α)) : Nat :=
  stack.foldl (fun n p => n + p.run.length) 0

/-- Merges the runs on top of the stack whose boundary is deeper than
the new one. -/
def collapse (less : α → α → Except ε Bool) (depth patience : Nat) (stack : List (Pending α)) :
    Except ε (List (Pending α) × Nat) :=
  match stack with
  | top :: next :: rest =>
      if depth < top.depth then do
        let (run, patience) ← mergeRuns less patience next.run top.run
        collapse less depth patience (⟨run, next.depth⟩ :: rest)
      else
        .ok (stack, patience)
  | stack => .ok (stack, patience)
termination_by stack.length

/-- Puts a run on the stack, of a list of the given length. -/
def push (less : α → α → Except ε Bool) (length patience : Nat) (stack : List (Pending α))
    (run : List α) : Except ε (List (Pending α) × Nat) :=
  match stack with
  | [] => .ok ([⟨run, 0⟩], patience)
  | top :: rest => do
      let depth := boundaryDepth length (totalLength rest) top.run.length run.length
      let (stack, patience) ← collapse less depth patience (top :: rest)
      return (⟨run, depth⟩ :: stack, patience)

/-- Cuts a list into runs and puts them on the stack; `fuel` bounds
their number. -/
def pushAll (less : α → α → Except ε Bool) (length : Nat) :
    Nat → Nat → List (Pending α) → List α → Except ε (List (Pending α) × Nat)
  | 0, patience, stack, _ => .ok (stack, patience)
  | _, patience, stack, [] => .ok (stack, patience)
  | fuel + 1, patience, stack, xs => do
      let (run, rest) ← nextRun less (shortestRun length 0) xs
      let (stack, patience) ← push less length patience stack run
      pushAll less length fuel patience stack rest

/-- Merges all runs on the stack, the run in the middle of three with
the shorter one of its neighbours. -/
def mergeAll (less : α → α → Except ε Bool) (patience : Nat) (stack : List (Pending α)) :
    Except ε (List α) :=
  match stack with
  | [] => .ok []
  | [top] => .ok top.run
  | [top, next] => do
      let (run, _) ← mergeRuns less patience next.run top.run
      return run
  | top :: next :: third :: rest =>
      if third.run.length < top.run.length then do
        let (run, patience) ← mergeRuns less patience third.run next.run
        mergeAll less patience (top :: ⟨run, third.depth⟩ :: rest)
      else do
        let (run, patience) ← mergeRuns less patience next.run top.run
        mergeAll less patience (⟨run, next.depth⟩ :: third :: rest)
termination_by stack.length

/-- Sorts a list; elements of which neither is less keep their order. -/
def sort (less : α → α → Except ε Bool) (xs : List α) : Except ε (List α) := do
  let (stack, patience) ← pushAll less xs.length xs.length longStretch [] xs
  mergeAll less patience stack

end DocStore.Sorting
