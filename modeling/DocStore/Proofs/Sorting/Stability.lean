import DocStore.Proofs.Sorting.Merging
import DocStore.Proofs.Sorting.Permutation

/-!
# Sorting is stable

If the comparison always answers, by a total preorder on the elements of
the list, sorting gives these elements in order and exchanges no two that
tie (`sort_stable`). The runs on the stack, read from the bottom run to
the top one, are at every moment what the list has been rearranged to so
far (`Stacked`): a new run goes on top, and merging replaces neighbours by
a rearrangement of the two.

A comparison may be a total preorder on the elements of one list only. It
is extended to one on all elements by putting the others behind
(`extended`), so that the laws of comparison functions apply.
-/

namespace DocStore.Sorting

open Std

variable {ε α : Type}

/-! ## The stack of runs -/

/-- The elements of the runs on a stack in the order of the list that they
come from: the run on top is the last one. -/
def fromBottom : List (Pending α) → List α
  | [] => []
  | top :: rest => fromBottom rest ++ top.run

/-- The runs on the stack are in order, and together they are the list,
rearranged. -/
structure Stacked (cmp : α → α → Ordering) (xs : List α) (stack : List (Pending α)) : Prop where
  runs : ∀ p ∈ stack, InOrder cmp p.run
  rearranged : Rearranged cmp xs (fromBottom stack)

section Stack

variable {less : α → α → Except ε Bool} {cmp : α → α → Ordering} [TransCmp cmp]
variable {whole xs run : List α} {stack rest : List (Pending α)} {top next : Pending α}

omit [TransCmp cmp] in
/-- A run goes on top of the stack. -/
theorem Stacked.cons (h : Stacked cmp xs stack) (hrun : InOrder cmp run) (depth : Nat) :
    Stacked cmp (xs ++ run) (⟨run, depth⟩ :: stack) where
  runs p hp := by
    rcases List.mem_cons.mp hp with rfl | hp
    · exact hrun
    · exact h.runs p hp
  rearranged := h.rearranged.append (Rearranged.refl run)

omit [TransCmp cmp] in
theorem Stacked.of_cons (h : Stacked cmp xs (top :: stack)) :
    Stacked cmp (fromBottom stack) stack where
  runs p hp := h.runs p (List.mem_cons_of_mem top hp)
  rearranged := Rearranged.refl _

omit [TransCmp cmp] in
theorem Stacked.of_rearranged {ys : List α} (h : Stacked cmp ys stack)
    (hmove : Rearranged cmp xs ys) : Stacked cmp xs stack where
  runs := h.runs
  rearranged := hmove.trans h.rearranged

/-- Two neighbouring runs on a stack are replaced by their merge. -/
theorem Stacked.returns_mergeTop (h : Stacked cmp xs (top :: next :: rest))
    (hless : Answers less cmp whole) (hsub : xs ⊆ whole) (patience : Nat) :
    Returns (mergeRuns less patience next.run top.run) fun m =>
      ∀ depth, Stacked cmp xs (⟨m.1, depth⟩ :: rest) := by
  have hmem : ∀ a ∈ fromBottom rest ++ next.run ++ top.run, a ∈ whole := fun a ha =>
    hsub (h.rearranged.mem_iff.mp ha)
  refine (returns_mergeRuns hless patience (fun a ha => hmem a (by simp [ha]))
    (fun a ha => hmem a (by simp [ha])) (h.runs next (by simp)) (h.runs top (by simp))).mono
      (fun m hm depth => ?_) fun _ he => he
  refine ⟨fun p hp => ?_, h.rearranged.trans ?_⟩
  · rcases List.mem_cons.mp hp with rfl | hp
    · exact hm.1
    · exact h.runs p (by simp [hp])
  · have hmove := (Rearranged.refl (fromBottom rest)).append hm.2
    rwa [← List.append_assoc] at hmove

theorem returns_collapse (hless : Answers less cmp whole) (hsub : xs ⊆ whole) (depth : Nat)
    (patience : Nat) (h : Stacked cmp xs stack) :
    Returns (collapse less depth patience stack) fun r => Stacked cmp xs r.1 := by
  fun_induction collapse less depth patience stack with
  | case1 patience top next rest hdepth ih =>
      refine (h.returns_mergeTop hless hsub patience).bind ?_
      rintro ⟨run, patience⟩ hrun
      exact ih run patience (hrun next.depth)
  | case2 => exact h
  | case3 => exact h

theorem returns_push (hless : Answers less cmp whole) (hsub : xs ⊆ whole) (length patience : Nat)
    (h : Stacked cmp xs stack) (hrun : InOrder cmp run) :
    Returns (push less length patience stack run) fun r => Stacked cmp (xs ++ run) r.1 := by
  cases stack with
  | nil => exact h.cons hrun 0
  | cons top rest =>
      refine (returns_collapse hless hsub _ patience h).bind fun r hr => ?_
      exact hr.cons hrun _

/-- Every run takes at least one element, so that fuel for each of them
is enough. -/
theorem returns_pushAll (length fuel patience : Nat) (ys : List α) (hfuel : ys.length ≤ fuel)
    (hless : Answers less cmp whole) (hsub : xs ++ ys ⊆ whole) (h : Stacked cmp xs stack) :
    Returns (pushAll less length fuel patience stack ys) fun r => Stacked cmp (xs ++ ys) r.1 := by
  induction fuel generalizing patience stack xs ys with
  | zero =>
      obtain rfl : ys = [] := List.length_eq_zero_iff.mp (by omega)
      rw [List.append_nil]
      exact h
  | succ fuel ih =>
      cases ys with
      | nil =>
          rw [List.append_nil]
          exact h
      | cons y ys =>
          obtain ⟨-, hys⟩ := List.append_subset.mp hsub
          obtain ⟨⟨run, rest⟩, hnext, hrun, hmove⟩ :=
            (returns_nextRun hless (shortestRun length 0) (y :: ys) hys).exists_ok fun _ he => he
          obtain ⟨hperm, hne⟩ := EndsIn.of_ok (compares_nextRun less _ (y :: ys)) hnext
          have hlength := hperm.length_eq
          have hpos := List.length_pos_of_ne_nil (hne (by simp))
          rw [List.length_append] at hlength
          have hall : Rearranged cmp (xs ++ y :: ys) (xs ++ run ++ rest) := by
            rw [List.append_assoc]
            exact (Rearranged.refl xs).append hmove
          have hsub' : xs ++ run ++ rest ⊆ whole := fun a ha => hsub (hall.mem_iff.mp ha)
          show Returns (nextRun less _ (y :: ys) >>= _) _
          rw [hnext, ok_bind]
          refine (returns_push hless (List.append_subset.mp hsub).1 length patience h hrun).bind
            fun r hr => ?_
          refine (ih r.2 rest (by dsimp only at hlength hpos; omega) hsub' hr).mono ?_ fun _ he => he
          exact fun s hs => hs.of_rearranged hall

theorem returns_mergeAll (hless : Answers less cmp whole) (hsub : xs ⊆ whole) (patience : Nat)
    (h : Stacked cmp xs stack) :
    Returns (mergeAll less patience stack) fun ys => InOrder cmp ys ∧ Rearranged cmp xs ys := by
  fun_induction mergeAll less patience stack generalizing xs with
  | case1 => exact ⟨List.Pairwise.nil, h.rearranged⟩
  | case2 patience top => exact ⟨h.runs top (by simp), h.rearranged⟩
  | case3 patience top next =>
      refine (h.returns_mergeTop hless hsub patience).bind ?_
      rintro ⟨run, patience⟩ hrun
      have hmerged := hrun 0
      exact ⟨hmerged.runs ⟨run, 0⟩ (by simp), hmerged.rearranged⟩
  | case4 patience top next third rest hshort ih =>
      -- the run in the middle is merged with the one below it
      have hsub' : fromBottom (next :: third :: rest) ⊆ whole := fun a ha =>
        hsub (h.rearranged.mem_iff.mp (List.mem_append_left _ ha))
      refine (h.of_cons.returns_mergeTop hless hsub' patience).bind ?_
      rintro ⟨run, patience⟩ hrun
      have hstack := (hrun third.depth).cons (h.runs top (by simp)) top.depth
      exact ih run patience hsub (hstack.of_rearranged h.rearranged)
  | case5 patience top next third rest hshort ih =>
      refine (h.returns_mergeTop hless hsub patience).bind ?_
      rintro ⟨run, patience⟩ hrun
      exact ih run patience hsub (hrun next.depth)

theorem returns_sort (hless : Answers less cmp xs) :
    Returns (sort less xs) fun ys => InOrder cmp ys ∧ Rearranged cmp xs ys := by
  have hempty : Stacked cmp [] [] := ⟨by simp, Rearranged.refl []⟩
  refine (returns_pushAll xs.length xs.length longStretch xs (Nat.le_refl _) hless
    (List.Subset.refl _) hempty).bind ?_
  rintro ⟨stack, patience⟩ hstack
  exact returns_mergeAll hless (List.Subset.refl _) patience hstack

end Stack

/-! ## Comparisons of the elements of a list -/

section Extended

variable {less : α → α → Except ε Bool} {cmp : α → α → Ordering} {xs : List α}

open Classical in
/-- The comparison of the elements of a list; all others come behind them,
and tie. -/
noncomputable def extended (cmp : α → α → Ordering) (xs : List α) (a b : α) : Ordering :=
  if a ∈ xs then
    if b ∈ xs then cmp a b else .lt
  else
    if b ∈ xs then .gt else .eq

theorem extended_of_mem {a b : α} (ha : a ∈ xs) (hb : b ∈ xs) : extended cmp xs a b = cmp a b := by
  simp only [extended, ha, hb, if_true]

theorem transCmp_extended (hswap : ∀ a ∈ xs, ∀ b ∈ xs, cmp a b = (cmp b a).swap)
    (htrans : ∀ a ∈ xs, ∀ b ∈ xs, ∀ c ∈ xs, (cmp a b).isLE = true → (cmp b c).isLE = true →
      (cmp a c).isLE = true) : TransCmp (extended cmp xs) where
  eq_swap {a b} := by
    unfold extended
    split <;> split
    · rename_i ha hb
      exact hswap a ha b hb
    all_goals rfl
  isLE_trans {a b c} hab hbc := by
    unfold extended at *
    by_cases ha : a ∈ xs <;> by_cases hb : b ∈ xs <;> by_cases hc : c ∈ xs <;>
      simp only [ha, hb, hc, if_true, if_false] at hab hbc ⊢
    · exact htrans a ha b hb c hc hab hbc
    all_goals first | rfl | exact absurd hab (by decide) | exact absurd hbc (by decide)

/-- **Sorting is stable.** By a comparison that always answers, and is a
total preorder on the elements of the list, they are put in order; of
those that tie with one of them, no two are exchanged. -/
theorem sort_stable (hless : Answers less cmp xs)
    (hswap : ∀ a ∈ xs, ∀ b ∈ xs, cmp a b = (cmp b a).swap)
    (htrans : ∀ a ∈ xs, ∀ b ∈ xs, ∀ c ∈ xs, (cmp a b).isLE = true → (cmp b c).isLE = true →
      (cmp a c).isLE = true) :
    ∃ ys, sort less xs = .ok ys ∧ ys.Perm xs ∧ InOrder cmp ys ∧
      ∀ a ∈ xs, ys.filter (cmp a · == .eq) = xs.filter (cmp a · == .eq) := by
  have := transCmp_extended hswap htrans
  have hanswers : Answers less (extended cmp xs) xs := by
    intro a ha b hb
    rw [extended_of_mem ha hb, hless a ha b hb]
  obtain ⟨ys, hys, hin, hmove⟩ := (returns_sort hanswers).exists_ok fun _ he => he
  have hmem : ∀ a ∈ ys, a ∈ xs := fun a ha => hmove.mem_iff.mp ha
  refine ⟨ys, hys, hmove.perm, ?_, ?_⟩
  · refine hin.imp_of_mem ?_
    intro a b ha hb hab
    rwa [extended_of_mem (hmem a ha) (hmem b hb)] at hab
  · intro a ha
    have hties : ∀ zs : List α, (∀ z ∈ zs, z ∈ xs) →
        zs.filter (cmp a · == .eq) = zs.filter (extended cmp xs a · == .eq) := by
      intro zs hzs
      refine List.filter_congr fun z hz => ?_
      rw [extended_of_mem ha (hzs z hz)]
    rw [hties ys hmem, hties xs fun _ hz => hz, hmove a]

end Extended

end DocStore.Sorting
