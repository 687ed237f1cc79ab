/-!
# Merging sorted runs

Two neighbouring runs are merged into one (`mergeRuns`); of elements of
which neither is less, those of the left run stay in front. The work
starts at the end where the shorter run lies, so a merge is read from
the front or from the back: at the back, both runs and the result are
reversed lists.

Elements are taken one by one, until one run has supplied so many in a
row that whole stretches are looked for (`mergeStretches`) and their
lengths found by probing (`countFront`). How many in a row it takes is
the patience of the merge, which grows and shrinks with the success of
probing and is handed on to the next merge.
-/

namespace DocStore.Sorting

variable {ε α : Type}

/-- The end at which runs are merged. -/
inductive Side where
  | front
  | back
deriving DecidableEq

/-! ## Probing -/

/-- Looks at every second place, doubling the distance, for an element
that fails a test: a place that passed and a later one, which failed or
is the end of the list. -/
def probe (test : α → Except ε Bool) (xs : List α) (passed next : Nat) : Except ε (Nat × Nat) :=
  if h : next < xs.length then do
    if ← test xs[next] then
      probe test xs next (2 * next + 1)
    else
      return (passed, next)
  else
    .ok (passed, xs.length)
termination_by xs.length - next
decreasing_by omega

/-- The middle of the places from `low` up to below `high`; of two it is
the one further from the end at which runs are merged, seen in the order
of the unreversed run. -/
def Side.middle (side : Side) (low high : Nat) : Nat :=
  match side with
  | .front => low + (high - low) / 2
  | .back => low + (high - low - 1) / 2

theorem Side.middle_lt (side : Side) {low high : Nat} (h : low < high) :
    side.middle low high < high := by
  cases side <;> simp only [Side.middle] <;> omega

theorem Side.le_middle (side : Side) (low high : Nat) : low ≤ side.middle low high := by
  cases side <;> simp only [Side.middle] <;> omega

/-- The first place from `low` up to `high` whose element fails a test,
found by halving. -/
def halve (side : Side) (test : α → Except ε Bool) (xs : List α) (low high : Nat) :
    Except ε Nat :=
  if h : low < high ∧ high ≤ xs.length then
    have := side.middle_lt h.1
    have := side.le_middle low high
    do
      if ← test (xs.get ⟨side.middle low high, by omega⟩) then
        halve side test xs (side.middle low high + 1) high
      else
        halve side test xs low (side.middle low high)
  else
    .ok low
termination_by high - low
decreasing_by all_goals omega

/-- The number of elements in front that pass a test, if all that pass
it stand in front. -/
def countFront (side : Side) (test : α → Except ε Bool) (xs : List α) : Except ε Nat :=
  match xs with
  | [] => .ok 0
  | x :: _ => do
      if ← test x then
        let (passed, bound) ← probe test xs 0 1
        halve side test xs (passed + 1) bound
      else
        return 0

/-! ## Merging from one end -/

/-- The element of the right run comes next, at the end where runs are
merged. -/
def rightNext (less : α → α → Except ε Bool) (side : Side) (r l : α) : Except ε Bool :=
  match side with
  | .front => less r l
  | .back => (less r l).map not

/-- What is left of two runs, once it needs no further comparison: one
run is used up, or the last element of the run that was the shorter one
is left and closes the merge. -/
def remainder? (side : Side) (left right : List α) : Option (List α) :=
  match side, left, right with
  | _, left, [] => some left
  | _, [], right => some right
  | .front, [l], right => some (right ++ [l])
  | .back, left, [r] => some (left ++ [r])
  | _, _, _ => none

/-- Stretches as long as this make it worth while to look for more. -/
def longStretch : Nat := 7

/-- Puts elements in front of what a merge gives. -/
def prepend (taken : List α) (merged : Except ε (List α × Nat)) : Except ε (List α × Nat) :=
  merged.map fun (rest, patience) => (taken ++ rest, patience)

mutual

/-- Merges element by element, and gives the patience left; the last
elements have come from one run, `leftWins` from the left one or
`rightWins` from the right one. -/
def mergeSingly (less : α → α → Except ε Bool) (side : Side)
    (patience leftWins rightWins : Nat) (left right : List α) : Except ε (List α × Nat) :=
  match left, right with
  | l :: left, r :: right => do
      if ← rightNext less side r l then
        prepend [r] <|
          match remainder? side (l :: left) right with
          | some rest => .ok (rest, patience)
          | none =>
              if patience ≤ rightWins + 1 then
                mergeStretches less side (patience + 1) (l :: left) right
              else
                mergeSingly less side patience 0 (rightWins + 1) (l :: left) right
      else
        prepend [l] <|
          match remainder? side left (r :: right) with
          | some rest => .ok (rest, patience)
          | none =>
              if patience ≤ leftWins + 1 then
                mergeStretches less side (patience + 1) left (r :: right)
              else
                mergeSingly less side patience (leftWins + 1) 0 left (r :: right)
  | left, right => .ok (left ++ right, patience)
termination_by left.length + right.length
decreasing_by all_goals (simp only [List.length_cons]; omega)

/-- Merges stretch by stretch: what comes before the next element of the
right run, this element, what comes before the next element of the left
run, this element. Patience shrinks as long as a stretch is long, and
grows when none is. -/
def mergeStretches (less : α → α → Except ε Bool) (side : Side) (patience : Nat)
    (left right : List α) : Except ε (List α × Nat) :=
  match right with
  | [] => .ok (left, patience)
  | r :: right => do
      let patience := max 1 (patience - 1)
      let i ← countFront side (fun x => (rightNext less side r x).map not) left
      prepend (left.take i) <|
        match remainder? side (left.drop i) (r :: right) with
        | some rest => .ok (rest, patience)
        | none => prepend [r] <|
          match remainder? side (left.drop i) right with
          | some rest => .ok (rest, patience)
          | none =>
              match h : left.drop i with
              | [] => .ok (right, patience)
              | l :: left' => do
                  have : left'.length < left.length := by
                    have := congrArg List.length h
                    simp only [List.length_drop, List.length_cons] at this
                    omega
                  let j ← countFront side (fun x => rightNext less side x l) right
                  prepend (right.take j) <|
                    match remainder? side (l :: left') (right.drop j) with
                    | some rest => .ok (rest, patience)
                    | none => prepend [l] <|
                      match remainder? side left' (right.drop j) with
                      | some rest => .ok (rest, patience)
                      | none =>
                          if longStretch ≤ i || longStretch ≤ j then
                            mergeStretches less side patience left' (right.drop j)
                          else
                            mergeSingly less side (patience + 1) 0 0 left' (right.drop j)
termination_by left.length + right.length
decreasing_by all_goals (simp only [List.length_cons, List.length_drop]; omega)

end

/-- Merges two runs, given the element that comes first. -/
def mergeBehind (less : α → α → Except ε Bool) (side : Side) (patience : Nat) (first : α)
    (left right : List α) : Except ε (List α × Nat) :=
  prepend [first] <|
    match remainder? side left right with
    | some rest => .ok (rest, patience)
    | none => mergeSingly less side patience 0 0 left right

/-- Merges two runs of which the first element is the first one of the
right run, and the last element is the last one of the left run. -/
def mergeOverlap (less : α → α → Except ε Bool) (patience : Nat) (left right : List α) :
    Except ε (List α × Nat) :=
  if left.length ≤ right.length then
    match right with
    | [] => .ok (left, patience)
    | r :: right => mergeBehind less .front patience r left right
  else
    match left.reverse with
    | [] => .ok (right, patience)
    | l :: left =>
        (mergeBehind less .back patience l left right.reverse).map fun (merged, patience) =>
          (merged.reverse, patience)

/-- Merges two neighbouring runs. What is in place already is left out:
the elements of the left run that come before all of the right one, and
those of the right run that come behind all of the left one. -/
def mergeRuns (less : α → α → Except ε Bool) (patience : Nat) (left right : List α) :
    Except ε (List α × Nat) :=
  match right with
  | [] => .ok (left, patience)
  | r :: _ => do
      let i ← countFront .front (fun x => (less r x).map not) left
      match (left.drop i).getLast? with
      | none => return (left ++ right, patience)
      | some l =>
          let j ← countFront .back (fun x => (less x l).map not) right.reverse
          let kept := right.length - j
          let (merged, patience) ← mergeOverlap less patience (left.drop i) (right.take kept)
          return (left.take i ++ merged ++ right.drop kept, patience)

end DocStore.Sorting
