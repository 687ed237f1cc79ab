import DocStore.Proofs.Run
import DocStore.Sorting.Basic
import Mathlib.Data.List.Perm.Basic

/-!
# Sorting keeps the elements

Whatever the comparison does, sorting either gives the elements of the
list in another order, or ends in the error of a comparison of two of
them (`Compares`). Runs, insertion and merging each keep the elements that
they are given, and so does the stack of runs, whose elements are those
of its runs together (`elements`). Nothing is said of the order here, so
no assumption on the comparison is needed, and every error of a sort
can be traced to a pair of elements (`compares_sort`).
-/

namespace DocStore.Sorting

variable {ε α β : Type}

/-! ## Outcomes -/

/-- The error is that of a comparison of two of the elements. -/
def FailsWithin (less : α → α → Except ε Bool) (xs : List α) (e : ε) : Prop :=
  ∃ a ∈ xs, ∃ b ∈ xs, less a b = .error e

/-- A computation that compares these elements only: a result of which
something holds, or the error of a comparison. -/
def Compares (less : α → α → Except ε Bool) (xs : List α) (x : Except ε β) (good : β → Prop) :
    Prop :=
  EndsIn x good (FailsWithin less xs)

section Compares

variable {less : α → α → Except ε Bool} {xs ys : List α} {x : Except ε β} {good fine : β → Prop}

theorem FailsWithin.mono {e : ε} (h : FailsWithin less xs e) (hsub : xs ⊆ ys) :
    FailsWithin less ys e := by
  obtain ⟨a, ha, b, hb, he⟩ := h
  exact ⟨a, hsub ha, b, hsub hb, he⟩

theorem Compares.mono (h : Compares less xs x good) (hsub : xs ⊆ ys)
    (hgood : ∀ b, good b → fine b) : Compares less ys x fine :=
  EndsIn.mono h hgood fun _ he => he.mono hsub

/-- A step on some of the elements. -/
theorem Compares.bind {γ : Type} {f : β → Except ε γ} {fine : γ → Prop}
    (h : Compares less xs x good) (hsub : xs ⊆ ys)
    (hf : ∀ b, good b → Compares less ys (f b) fine) : Compares less ys (x >>= f) fine :=
  EndsIn.bind (h.mono hsub fun _ hb => hb) hf

theorem compares_less {a b : α} (ha : a ∈ xs) (hb : b ∈ xs) :
    Compares less xs (less a b) fun _ => True := by
  cases h : less a b with
  | ok c => exact trivial
  | error e => exact ⟨a, ha, b, hb, h⟩

end Compares

/-! ## Runs and insertion -/

section Runs

variable (less : α → α → Except ε Bool)

theorem compares_splitAscending (last : α) (xs : List α) :
    Compares less (last :: xs) (splitAscending less last xs) fun r => r.1 ++ r.2 = xs := by
  induction xs generalizing last with
  | nil => exact rfl
  | cons x rest ih =>
      refine (compares_less (by simp) (by simp)).bind (List.Subset.refl _) fun c _ => ?_
      cases c with
      | true => exact rfl
      | false =>
          refine (ih x).bind (List.subset_cons_self ..) fun r hr => ?_
          exact congrArg (x :: ·) hr

theorem compares_splitDescending (last : α) (xs : List α) :
    Compares less (last :: xs) (splitDescending less last xs) fun r => r.1 ++ r.2 = xs := by
  induction xs generalizing last with
  | nil => exact rfl
  | cons x rest ih =>
      refine (compares_less (by simp) (by simp)).bind (List.Subset.refl _) fun c _ => ?_
      cases c with
      | true =>
          refine (ih x).bind (List.subset_cons_self ..) fun r hr => ?_
          exact congrArg (x :: ·) hr
      | false => exact rfl

/-- A run is not empty, unless the list is. -/
theorem compares_splitRun (xs : List α) :
    Compares less xs (splitRun less xs) fun r =>
      (r.1 ++ r.2).Perm xs ∧ (xs ≠ [] → r.1 ≠ []) := by
  match xs with
  | [] => exact ⟨.refl _, fun h => h⟩
  | [x] => exact ⟨.refl _, fun h => h⟩
  | x :: y :: rest =>
      refine (compares_less (by simp) (by simp)).bind (List.Subset.refl _) fun c _ => ?_
      cases c with
      | true =>
          refine (compares_splitDescending less y rest).bind (List.subset_cons_self ..)
            fun r hr => ⟨?_, fun _ => by simp⟩
          rw [← hr]
          exact (List.reverse_perm _).append_right _
      | false =>
          refine (compares_splitAscending less y rest).bind (List.subset_cons_self ..)
            fun r hr => ⟨?_, fun _ => by simp⟩
          rw [← hr]
          exact .refl _

theorem compares_place (x : α) (sorted : List α) (fuel low high : Nat) :
    Compares less (x :: sorted) (place less x sorted fuel low high) fun _ => True := by
  induction fuel generalizing low high with
  | zero => exact trivial
  | succ fuel ih =>
      rw [place]
      split
      · dsimp only
        split
        · exact trivial
        · rename_i y hy
          have hmem : y ∈ x :: sorted := List.mem_cons_of_mem _ (List.mem_of_getElem? hy)
          refine (compares_less (by simp) hmem).bind (List.Subset.refl _) fun c _ => ?_
          cases c with
          | true => exact ih ..
          | false => exact ih ..
      · exact trivial

theorem compares_insert (sorted : List α) (x : α) :
    Compares less (x :: sorted) (insert less sorted x) fun r => r.Perm (x :: sorted) := by
  refine (compares_place less x sorted _ _ _).bind (List.Subset.refl _) fun i _ => ?_
  exact List.perm_middle.trans (by rw [List.take_append_drop])

theorem compares_insertAll (sorted xs : List α) :
    Compares less (sorted ++ xs) (insertAll less sorted xs) fun r => r.Perm (sorted ++ xs) := by
  induction xs generalizing sorted with
  | nil => exact .of_eq (List.append_nil _).symm
  | cons x rest ih =>
      have hperm : (x :: sorted ++ rest).Perm (sorted ++ x :: rest) := List.perm_middle.symm
      refine (compares_insert less sorted x).bind
        (List.Subset.trans (List.subset_append_left ..) hperm.subset) fun r hr => ?_
      have hr' := (hr.append_right rest).trans hperm
      exact (ih r).mono hr'.subset fun _ h => h.trans hr'

theorem compares_nextRun (wanted : Nat) (xs : List α) :
    Compares less xs (nextRun less wanted xs) fun r =>
      (r.1 ++ r.2).Perm xs ∧ (xs ≠ [] → r.1 ≠ []) := by
  refine (compares_splitRun less xs).bind (List.Subset.refl _) ?_
  rintro ⟨run, rest⟩ ⟨hperm, hne⟩
  have hsub : run ++ rest.take (wanted - run.length) ⊆ xs :=
    List.Subset.trans ((List.take_sublist ..).append_left run).subset hperm.subset
  refine (compares_insertAll less run _).bind hsub fun r hr => ⟨?_, fun hxs hnil => ?_⟩
  · refine (hr.append_right _).trans ?_
    rw [List.append_assoc, List.take_append_drop]
    exact hperm
  · obtain rfl : r = [] := hnil
    exact hne hxs (List.append_eq_nil_iff.mp hr.nil_eq.symm).1

end Runs

/-! ## Probing -/

section Probing

/-- The error is that of a test of one of the elements. -/
def FailsOn (test : α → Except ε Bool) (xs : List α) (e : ε) : Prop :=
  ∃ a ∈ xs, test a = .error e

variable (test : α → Except ε Bool)

theorem endsIn_test {xs : List α} {a : α} (ha : a ∈ xs) :
    EndsIn (test a) (fun _ => True) (FailsOn test xs) := by
  cases h : test a with
  | ok c => exact trivial
  | error e => exact ⟨a, ha, h⟩

theorem endsIn_probe (xs : List α) (passed next : Nat) :
    EndsIn (probe test xs passed next) (fun _ => True) (FailsOn test xs) := by
  fun_induction probe test xs passed next with
  | case1 passed next h ih =>
      refine (endsIn_test test (List.getElem_mem h)).bind fun c _ => ?_
      cases c with
      | true => exact ih
      | false => exact trivial
  | case2 => exact trivial

theorem endsIn_halve (side : Side) (xs : List α) (low high : Nat) :
    EndsIn (halve side test xs low high) (fun _ => True) (FailsOn test xs) := by
  fun_induction halve side test xs low high with
  | case1 low high h _ _ ih ih' =>
      refine (endsIn_test test (List.get_mem ..)).bind fun c _ => ?_
      cases c with
      | true => exact ih
      | false => exact ih'
  | case2 => exact trivial

theorem endsIn_countFront (side : Side) (xs : List α) :
    EndsIn (countFront side test xs) (fun _ => True) (FailsOn test xs) := by
  cases xs with
  | nil => exact trivial
  | cons x xs =>
      refine (endsIn_test test (List.mem_cons_self ..)).bind fun c _ => ?_
      cases c with
      | true => exact (endsIn_probe test _ _ _).bind fun r _ => endsIn_halve test side _ _ _
      | false => exact trivial

end Probing

/-! ## Merging -/

section Merging

variable (less : α → α → Except ε Bool)

theorem compares_rightNext (side : Side) {xs : List α} {r l : α} (hr : r ∈ xs) (hl : l ∈ xs) :
    Compares less xs (rightNext less side r l) fun _ => True := by
  cases side with
  | front => exact compares_less hr hl
  | back => exact EndsIn.map (compares_less hr hl) fun _ h => h

/-- Counting the elements in front that pass a comparison with `a`. -/
theorem compares_countFront (side : Side) {xs : List α} {test : α → Except ε Bool}
    {ys : List α} (htest : ∀ y ∈ ys, Compares less xs (test y) fun _ => True) :
    Compares less xs (countFront side test ys) fun _ => True := by
  refine EndsIn.mono (endsIn_countFront test side ys) (fun _ h => h) ?_
  rintro e ⟨y, hy, he⟩
  exact EndsIn.of_error (htest y hy) he

theorem perm_of_remainder? {side : Side} {left right rest : List α}
    (h : remainder? side left right = some rest) : rest.Perm (left ++ right) := by
  unfold remainder? at h
  split at h
  · obtain rfl := Option.some.inj h
    rw [List.append_nil]
  · obtain rfl := Option.some.inj h
    exact .refl _
  · obtain rfl := Option.some.inj h
    exact List.perm_append_comm
  · obtain rfl := Option.some.inj h
    exact .refl _
  · cases h

/-- The merge of two runs, in which elements of `xs` are compared. -/
def Merges (xs left right : List α) (merged : Except ε (List α × Nat)) : Prop :=
  Compares less xs merged fun r => r.1.Perm (left ++ right)

variable {less} {xs ys left right : List α} {merged : Except ε (List α × Nat)}

theorem Merges.mono (h : Merges less xs left right merged) (hsub : xs ⊆ ys) :
    Merges less ys left right merged :=
  Compares.mono h hsub fun _ hr => hr

/-- Elements of the left run have been taken. -/
theorem Merges.prepend_left (taken : List α) (h : Merges less xs left right merged) :
    Merges less xs (taken ++ left) right (prepend taken merged) :=
  EndsIn.map h fun _ hr => by
    rw [List.append_assoc]
    exact hr.append_left taken

/-- Elements of the right run have been taken. -/
theorem Merges.prepend_right (taken : List α) (h : Merges less xs left right merged) :
    Merges less xs left (taken ++ right) (prepend taken merged) :=
  EndsIn.map h fun _ hr => by
    refine (hr.append_left taken).trans ?_
    rw [← List.append_assoc, ← List.append_assoc]
    exact List.perm_append_comm.append_right right

/-- The merge goes on unless nothing is left to compare. -/
theorem Merges.remainder (h : Merges less xs left right merged) (side : Side)
    (patience : Nat) :
    Merges less xs left right
      (match remainder? side left right with
        | some rest => .ok (rest, patience)
        | none => merged) := by
  split
  · rename_i rest hrest
    exact perm_of_remainder? hrest
  · exact h

/-- By induction on the number of elements, for both ways to merge at
once, as each goes over to the other. -/
theorem merges_of_length (less : α → α → Except ε Bool) (side : Side) (n : Nat)
    (left right : List α) (hn : left.length + right.length = n) :
    (∀ patience leftWins rightWins, Merges less (left ++ right) left right
      (mergeSingly less side patience leftWins rightWins left right)) ∧
    (∀ patience, Merges less (left ++ right) left right
      (mergeStretches less side patience left right)) := by
  induction n using Nat.strongRecOn generalizing left right with
  | _ n ih =>
  constructor
  · intro patience leftWins rightWins
    unfold mergeSingly
    split
    · rename_i l left r right
      simp only [List.length_cons] at hn
      refine (compares_rightNext less side (by simp) (by simp)).bind (List.Subset.refl _)
        fun c _ => ?_
      cases c with
      | true =>
          have ih := ih _ (by simp only [List.length_cons]; omega) (l :: left) right rfl
          have hsub : l :: left ++ right ⊆ l :: left ++ r :: right :=
            ((List.sublist_cons_self r right).append_left _).subset
          refine Merges.prepend_right [r] (.remainder ?_ side patience)
          split
          · exact (ih.2 _).mono hsub
          · exact (ih.1 _ _ _).mono hsub
      | false =>
          have ih := ih _ (by simp only [List.length_cons]; omega) left (r :: right) rfl
          have hsub : left ++ r :: right ⊆ l :: left ++ r :: right :=
            List.subset_cons_self ..
          refine Merges.prepend_left [l] (.remainder ?_ side patience)
          split
          · exact (ih.2 _).mono hsub
          · exact (ih.1 _ _ _).mono hsub
    · exact List.Perm.refl _
  · intro patience
    unfold mergeStretches
    split
    · exact .of_eq (List.append_nil _).symm
    · rename_i r right
      simp only [List.length_cons] at hn
      have hleft : ∀ l ∈ left, l ∈ left ++ r :: right := fun l hl => List.mem_append_left _ hl
      -- what comes before the next element of the right run
      refine (compares_countFront less side fun l hl =>
        EndsIn.map (compares_rightNext less side (by simp) (hleft l hl)) fun _ h => h).bind
          (List.Subset.refl _) fun i _ => ?_
      suffices h : Merges less (left ++ r :: right) (left.take i ++ left.drop i) (r :: right) _ by
        rwa [List.take_append_drop] at h
      refine Merges.prepend_left _ (.remainder ?_ side _)
      refine Merges.prepend_right [r] (.remainder ?_ side _)
      split
      · rename_i hdrop
        rw [hdrop]
        exact List.Perm.refl _
      · rename_i l left' hdrop
        dsimp only
        rw [hdrop]
        have hsuffix : l :: left' <:+ left := hdrop ▸ List.drop_suffix i left
        have hlength := hsuffix.length_le
        rw [List.length_cons] at hlength
        -- what comes before the next element of the left run
        refine (compares_countFront less side fun x hx =>
          compares_rightNext less side (by simp [hx])
            (hleft l (hsuffix.subset (List.mem_cons_self ..)))).bind (List.Subset.refl _)
              fun j _ => ?_
        suffices h : Merges less (left ++ r :: right) (l :: left')
            (right.take j ++ right.drop j) _ by
          rwa [List.take_append_drop] at h
        refine Merges.prepend_right _ (.remainder ?_ side _)
        refine Merges.prepend_left [l] (.remainder ?_ side _)
        have ih := ih _ (by rw [List.length_drop]; omega) left' (right.drop j) rfl
        have hsub : left' ++ right.drop j ⊆ left ++ r :: right :=
          List.append_subset.mpr ⟨fun x hx => hleft x (hsuffix.subset (List.mem_cons_of_mem l hx)),
            fun x hx => by simp [List.mem_of_mem_drop hx]⟩
        split
        · exact (ih.2 _).mono hsub
        · exact (ih.1 _ _ _).mono hsub

theorem merges_mergeSingly (side : Side) (patience leftWins rightWins : Nat)
    (left right : List α) :
    Merges less (left ++ right) left right
      (mergeSingly less side patience leftWins rightWins left right) :=
  (merges_of_length less side _ left right rfl).1 ..

theorem merges_mergeBehind (side : Side) (patience : Nat) (first : α) (left right : List α) :
    Merges less (left ++ right) (first :: left) right
      (mergeBehind less side patience first left right) :=
  Merges.prepend_left [first]
    ((merges_mergeSingly side patience 0 0 left right).remainder side patience)

theorem merges_mergeOverlap (patience : Nat) (left right : List α) :
    Merges less (left ++ right) left right (mergeOverlap less patience left right) := by
  unfold mergeOverlap
  split
  · split
    · exact .of_eq (List.append_nil _).symm
    · rename_i r right hle
      refine Compares.mono (merges_mergeBehind .front patience r left right) ?_ ?_
      · exact ((List.sublist_cons_self r right).append_left left).subset
      · exact fun _ h => h.trans List.perm_middle.symm
  · split
    · rename_i hle hnil
      obtain rfl := List.reverse_eq_nil_iff.mp hnil
      exact List.Perm.refl _
    · rename_i hle l left' hleft
      -- seen from the back, both runs are reversed
      have hreversed : (l :: left' ++ right.reverse).Perm (left ++ right) := by
        rw [← hleft]
        exact (List.reverse_perm left).append (List.reverse_perm right)
      have hmerge : Merges less (left ++ right) (l :: left') right.reverse _ :=
        (merges_mergeBehind .back patience l left' right.reverse).mono
          (List.Subset.trans (List.subset_cons_self ..) hreversed.subset)
      exact EndsIn.map hmerge fun r hr => (List.reverse_perm r.1).trans (hr.trans hreversed)

/-- Neighbouring runs are merged. -/
theorem merges_mergeRuns (patience : Nat) (left right : List α) :
    Merges less (left ++ right) left right (mergeRuns less patience left right) := by
  unfold mergeRuns
  split
  · exact .of_eq (List.append_nil _).symm
  · rename_i r rest
    generalize hright : r :: rest = right
    have hr : r ∈ left ++ right := by simp [← hright]
    refine (compares_countFront less .front fun x hx =>
      EndsIn.map (compares_less hr (List.mem_append_left _ hx)) fun _ h => h).bind
        (List.Subset.refl _) fun i _ => ?_
    split
    · exact List.Perm.refl _
    · rename_i l hl
      have hl : l ∈ left ++ right :=
        List.mem_append_left _ (List.mem_of_mem_drop (List.mem_of_getLast? hl))
      refine (compares_countFront less .back fun x hx => EndsIn.map (compares_less
        (List.mem_append_right _ (List.mem_reverse.mp hx)) hl) fun _ h => h).bind
          (List.Subset.refl _) fun j _ => ?_
      -- the elements that are in place stay where they are
      have hsub : left.drop i ++ right.take (right.length - j) ⊆ left ++ right :=
        List.append_subset.mpr ⟨fun x hx => List.mem_append_left _ (List.mem_of_mem_drop hx),
          fun x hx => List.mem_append_right _ (List.mem_of_mem_take hx)⟩
      refine (merges_mergeOverlap patience _ _).bind hsub fun m hm => ?_
      have hperm : (left.take i ++ m.1 ++ right.drop (right.length - j)).Perm
          (left.take i ++ (left.drop i ++ right.take (right.length - j)) ++
            right.drop (right.length - j)) := (hm.append_left _).append_right _
      rwa [← List.append_assoc (left.take i) (left.drop i), List.take_append_drop,
        List.append_assoc left, List.take_append_drop] at hperm

end Merging

/-! ## The stack of runs -/

/-- The elements of the runs on a stack. -/
def elements (stack : List (Pending α)) : List α :=
  stack.flatMap (·.run)

@[simp] theorem elements_nil : elements ([] : List (Pending α)) = [] := rfl

@[simp] theorem elements_cons (top : Pending α) (stack : List (Pending α)) :
    elements (top :: stack) = top.run ++ elements stack := List.flatMap_cons

section Stack

variable (less : α → α → Except ε Bool)

/-- Two neighbouring runs on a stack are replaced by their merge. -/
theorem compares_mergeTop (patience : Nat) (top next : Pending α) (rest : List (Pending α)) :
    Compares less (elements (top :: next :: rest)) (mergeRuns less patience next.run top.run)
      fun r => ∀ depth,
        (elements (⟨r.1, depth⟩ :: rest)).Perm (elements (top :: next :: rest)) := by
  have hperm : (next.run ++ top.run ++ elements rest).Perm (elements (top :: next :: rest)) := by
    rw [elements_cons, elements_cons, ← List.append_assoc]
    exact List.perm_append_comm.append_right _
  refine Compares.mono (merges_mergeRuns patience next.run top.run)
    (List.Subset.trans (List.subset_append_left ..) hperm.subset) fun r hr depth => ?_
  rw [elements_cons]
  exact (hr.append_right _).trans hperm

theorem compares_collapse (depth patience : Nat) (stack : List (Pending α)) :
    Compares less (elements stack) (collapse less depth patience stack) fun r =>
      (elements r.1).Perm (elements stack) := by
  fun_induction collapse less depth patience stack with
  | case1 patience top next rest hdepth ih =>
      refine (compares_mergeTop less patience top next rest).bind (List.Subset.refl _) ?_
      rintro ⟨run, patience⟩ hrun
      have hperm := hrun next.depth
      exact (ih run patience).mono hperm.subset fun _ h => h.trans hperm
  | case2 => exact List.Perm.refl _
  | case3 => exact List.Perm.refl _

theorem compares_push (length patience : Nat) (stack : List (Pending α)) (run : List α) :
    Compares less (elements stack) (push less length patience stack run) fun r =>
      (elements r.1).Perm (run ++ elements stack) := by
  cases stack with
  | nil => exact .of_eq (by simp)
  | cons top rest =>
      refine (compares_collapse less _ patience (top :: rest)).bind (List.Subset.refl _)
        fun r hr => ?_
      exact hr.append_left run

/-- Every run takes at least one element, so that fuel for each of them
is enough. -/
theorem compares_pushAll (length fuel patience : Nat) (stack : List (Pending α)) (xs : List α)
    (hfuel : xs.length ≤ fuel) :
    Compares less (elements stack ++ xs) (pushAll less length fuel patience stack xs) fun r =>
      (elements r.1).Perm (elements stack ++ xs) := by
  induction fuel generalizing patience stack xs with
  | zero =>
      obtain rfl : xs = [] := List.length_eq_zero_iff.mp (by omega)
      exact .of_eq (List.append_nil _).symm
  | succ fuel ih =>
      cases xs with
      | nil => exact .of_eq (List.append_nil _).symm
      | cons x xs =>
          refine (compares_nextRun less _ (x :: xs)).bind (List.subset_append_right ..) ?_
          rintro ⟨run, rest⟩ ⟨hperm, hne⟩
          refine (compares_push less length patience stack run).bind
            (List.subset_append_left ..) ?_
          rintro ⟨stack', patience'⟩ hstack
          have hlength := hperm.length_eq
          have hpos := List.length_pos_of_ne_nil (hne (by simp))
          rw [List.length_append] at hlength
          have hall : (elements stack' ++ rest).Perm (elements stack ++ x :: xs) := by
            refine (hstack.append_right rest).trans ?_
            refine (List.perm_append_comm.append_right rest).trans ?_
            rw [List.append_assoc]
            exact hperm.append_left _
          exact (ih patience' stack' rest (by dsimp only at hlength hpos; omega)).mono
            hall.subset fun _ h => h.trans hall

theorem compares_mergeAll (patience : Nat) (stack : List (Pending α)) :
    Compares less (elements stack) (mergeAll less patience stack) fun r =>
      r.Perm (elements stack) := by
  fun_induction mergeAll less patience stack with
  | case1 => exact List.Perm.refl _
  | case2 patience top => exact .of_eq (by simp)
  | case3 patience top next =>
      refine (compares_mergeTop less patience top next []).bind (List.Subset.refl _) ?_
      rintro ⟨run, patience⟩ hrun
      have hperm := hrun 0
      rwa [elements_cons, elements_nil, List.append_nil] at hperm
  | case4 patience top next third rest hshort ih =>
      -- the run in the middle is merged with the one below it
      refine (compares_mergeTop less patience next third rest).bind
        (List.subset_append_right ..) ?_
      rintro ⟨run, patience⟩ hrun
      have hperm : (elements (top :: ⟨run, third.depth⟩ :: rest)).Perm
          (elements (top :: next :: third :: rest)) := (hrun third.depth).append_left top.run
      exact (ih run patience).mono hperm.subset fun _ h => h.trans hperm
  | case5 patience top next third rest hshort ih =>
      refine (compares_mergeTop less patience top next (third :: rest)).bind
        (List.Subset.refl _) ?_
      rintro ⟨run, patience⟩ hrun
      have hperm := hrun next.depth
      exact (ih run patience).mono hperm.subset fun _ h => h.trans hperm

/-- **Sorting keeps the elements**, and fails only in a comparison of two
of them. -/
theorem compares_sort (xs : List α) :
    Compares less xs (sort less xs) fun ys => ys.Perm xs := by
  refine (compares_pushAll less xs.length xs.length longStretch [] xs (Nat.le_refl _)).bind
    (List.Subset.refl _) ?_
  rintro ⟨stack, patience⟩ hstack
  exact (compares_mergeAll less patience stack).mono hstack.subset fun _ h => h.trans hstack

end Stack

end DocStore.Sorting
