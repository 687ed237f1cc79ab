import DocStore.Proofs.Run
import DocStore.Sorting.Insertion
import Mathlib.Data.List.Pairwise

/-!
# Rearranging without exchanging ties

A stable sort rearranges a list but never exchanges two elements that tie
(`Rearranged`): for every element, those that tie with it are the same
before and after, in the same order. The elements themselves are then the
same too (`Rearranged.perm`). Every step of the sort is one of two moves:
neighbouring parts are rearranged each for itself (`Rearranged.append`),
or an element passes others of which none ties with it (`rearranged_past`).

Here the comparison of the sort always answers, by a total preorder
(`Answers`). A run is then in order, and turning round a run in strictly
reverse order exchanges no ties; an element inserted by halving lands at
the one place where those before it pass a test and those behind fail it
(`Narrowed`).
-/

namespace DocStore.Sorting

open Std

variable {ε α β : Type}

/-! ## Order and ties -/

section Order

variable (cmp : α → α → Ordering)

/-- No element is greater than one behind it. -/
def InOrder (xs : List α) : Prop :=
  xs.Pairwise fun a b => (cmp a b).isLE = true

/-- Of the elements that tie with any one, none is lost, none is added,
and no two are exchanged. -/
def Rearranged (xs ys : List α) : Prop :=
  ∀ a, ys.filter (cmp a · == .eq) = xs.filter (cmp a · == .eq)

variable {cmp} {xs ys zs xs' ys' : List α} {a b : α}

theorem inOrder_cons :
    InOrder cmp (a :: xs) ↔ (∀ x ∈ xs, (cmp a x).isLE = true) ∧ InOrder cmp xs :=
  List.pairwise_cons

theorem Rearranged.refl (xs : List α) : Rearranged cmp xs xs := fun _ => rfl

theorem Rearranged.symm (h : Rearranged cmp xs ys) : Rearranged cmp ys xs := fun a => (h a).symm

theorem Rearranged.trans (h : Rearranged cmp xs ys) (h' : Rearranged cmp ys zs) :
    Rearranged cmp xs zs := fun a => (h' a).trans (h a)

theorem Rearranged.append (h : Rearranged cmp xs ys) (h' : Rearranged cmp xs' ys') :
    Rearranged cmp (xs ++ xs') (ys ++ ys') := by
  intro a
  rw [List.filter_append, List.filter_append, h a, h' a]

theorem Rearranged.cons (a : α) (h : Rearranged cmp xs ys) : Rearranged cmp (a :: xs) (a :: ys) :=
  (Rearranged.refl [a]).append h

theorem Rearranged.reverse (h : Rearranged cmp xs ys) :
    Rearranged cmp xs.reverse ys.reverse := by
  intro a
  rw [List.filter_reverse, List.filter_reverse, h a]

theorem Rearranged.mem_iff [ReflCmp cmp] (h : Rearranged cmp xs ys) : a ∈ ys ↔ a ∈ xs := by
  have hmem : ∀ zs : List α, a ∈ zs ↔ a ∈ zs.filter (cmp a · == .eq) := by
    intro zs
    simp [List.mem_filter, (ReflCmp.compare_self : cmp a a = .eq)]
  rw [hmem ys, h a, ← hmem xs]

open Classical in
/-- The elements are the same, each as many times. -/
theorem Rearranged.perm [ReflCmp cmp] (h : Rearranged cmp xs ys) : ys.Perm xs := by
  rw [List.perm_iff_count]
  intro a
  have hself : (cmp a a == .eq) = true := by rw [(ReflCmp.compare_self : cmp a a = .eq)]; rfl
  have hcount : ∀ zs : List α, (zs.filter (cmp a · == .eq)).count a = zs.count a :=
    fun zs => List.count_filter (p := fun x => cmp a x == .eq) hself
  rw [← hcount ys, h a, hcount xs]

variable [TransCmp cmp]

theorem isLE_of_not_lt (h : (cmp b a == .lt) = false) : (cmp a b).isLE = true := by
  by_contra hgt
  rw [OrientedCmp.lt_of_not_isLE hgt] at h
  cases h

/-- An element passes others of which none ties with it. -/
theorem rearranged_past (h : ∀ x ∈ xs, cmp b x ≠ .eq) : Rearranged cmp (xs ++ [b]) (b :: xs) := by
  intro a
  by_cases hab : cmp a b = .eq
  · -- those that tie with the element are that element alone
    have hnone : xs.filter (cmp a · == .eq) = [] := by
      rw [List.filter_eq_nil_iff]
      intro x hx hax
      exact h x hx (TransCmp.eq_trans (OrientedCmp.eq_symm hab) (by simpa using hax))
    simp [List.filter_append, hab, hnone]
  · have hne : (cmp a b == .eq) = false := by simpa using hab
    simp [List.filter_append, hne]

theorem rearranged_past_append (h : ∀ x ∈ xs, cmp b x ≠ .eq) (ys : List α) :
    Rearranged cmp (xs ++ b :: ys) (b :: (xs ++ ys)) := by
  simpa using (rearranged_past h).append (Rearranged.refl ys)

/-- A list without ties can be turned round. -/
theorem rearranged_reverse (h : xs.Pairwise fun a b => cmp a b ≠ .eq) :
    Rearranged cmp xs xs.reverse := by
  induction xs with
  | nil => exact Rearranged.refl []
  | cons x xs ih =>
      obtain ⟨hx, hxs⟩ := List.pairwise_cons.mp h
      rw [List.reverse_cons]
      exact (rearranged_past hx).symm.trans ((ih hxs).append (Rearranged.refl [x]))

instance isTrans_isLE : IsTrans α fun a b => (cmp a b).isLE = true :=
  ⟨fun _ _ _ => TransCmp.isLE_trans⟩

instance isTrans_lt_flip : IsTrans α fun a b => cmp b a = .lt :=
  ⟨fun _ _ _ hab hbc => TransCmp.lt_trans hbc hab⟩

theorem InOrder.cons_of_isLE (h : InOrder cmp (b :: xs)) (hab : (cmp a b).isLE = true) :
    InOrder cmp (a :: b :: xs) :=
  List.pairwise_cons_cons_iff_of_trans.mpr ⟨hab, h⟩

end Order

/-! ## Computations that always answer -/

/-- The computation has a result, of which something holds. -/
abbrev Returns (x : Except ε β) (good : β → Prop) : Prop :=
  EndsIn x good fun _ => False

/-- On these elements the comparison always answers, as `cmp` says. -/
def Answers (less : α → α → Except ε Bool) (cmp : α → α → Ordering) (elements : List α) : Prop :=
  ∀ a ∈ elements, ∀ b ∈ elements, less a b = .ok (cmp a b == .lt)

/-! ## Narrowing down a place -/

/-- The elements before `low` pass a test, those from `high` on fail it. -/
structure Narrowed (p : α → Bool) (xs : List α) (low high : Nat) : Prop where
  low_le : low ≤ high
  high_le : high ≤ xs.length
  passed : ∀ i (h : i < xs.length), i < low → p xs[i] = true
  failed : ∀ i (h : i < xs.length), high ≤ i → p xs[i] = false

section Narrowed

variable {p : α → Bool} {xs : List α} {low high middle : Nat}

/-- All that pass the test stand in front. -/
def PassFirst (p : α → Bool) (xs : List α) : Prop :=
  xs.Pairwise fun a b => p b = true → p a = true

theorem PassFirst.pass (h : PassFirst p xs) {i j : Nat} (hij : i ≤ j) (hi : i < xs.length)
    (hj : j < xs.length) (hpass : p xs[j] = true) : p xs[i] = true := by
  rcases Nat.lt_or_eq_of_le hij with hlt | rfl
  · exact List.pairwise_iff_getElem.mp h i j hi hj hlt hpass
  · exact hpass

theorem PassFirst.fail (h : PassFirst p xs) {i j : Nat} (hij : i ≤ j) (hi : i < xs.length)
    (hj : j < xs.length) (hfail : p xs[i] = false) : p xs[j] = false := by
  by_contra hne
  rw [h.pass hij hi hj (by simpa using hne)] at hfail
  cases hfail

theorem PassFirst.all_fail {a : α} (h : PassFirst p (a :: xs)) (hfail : p a = false) :
    ∀ x ∈ a :: xs, p x = false := by
  intro x hx
  rcases List.mem_cons.mp hx with rfl | hx
  · exact hfail
  · by_contra hne
    rw [(List.pairwise_cons.mp h).1 x hx (by simpa using hne)] at hfail
    cases hfail

theorem narrowed_all (p : α → Bool) (xs : List α) : Narrowed p xs 0 xs.length where
  low_le := Nat.zero_le _
  high_le := Nat.le_refl _
  passed _ _ h := absurd h (Nat.not_lt_zero _)
  failed _ h h' := absurd h (Nat.not_lt.mpr h')

/-- The element at a place passes. -/
theorem Narrowed.above (h : Narrowed p xs low high) (hp : PassFirst p xs) (hmiddle : middle < high)
    (hpass : ∀ h : middle < xs.length, p xs[middle] = true) :
    Narrowed p xs (middle + 1) high where
  low_le := hmiddle
  high_le := h.high_le
  passed i hi hi' := by
    have hlength : middle < xs.length := Nat.lt_of_lt_of_le hmiddle h.high_le
    exact hp.pass (Nat.le_of_lt_succ hi') hi hlength (hpass hlength)
  failed := h.failed

/-- The element at a place fails. -/
theorem Narrowed.below (h : Narrowed p xs low high) (hp : PassFirst p xs) (hlow : low ≤ middle)
    (hmiddle : middle ≤ xs.length) (hfail : ∀ h : middle < xs.length, p xs[middle] = false) :
    Narrowed p xs low middle where
  low_le := hlow
  high_le := hmiddle
  passed := h.passed
  failed i hi hi' := by
    have hlength : middle < xs.length := Nat.lt_of_le_of_lt hi' hi
    exact hp.fail hi' hlength hi (hfail hlength)

theorem Narrowed.of_mem_take (h : Narrowed p xs low low) {x : α} (hx : x ∈ xs.take low) :
    p x = true := by
  obtain ⟨i, hi, rfl⟩ := List.mem_take_iff_getElem.mp hx
  exact h.passed i (by omega) (by omega)

theorem Narrowed.of_mem_drop (h : Narrowed p xs low low) {x : α} (hx : x ∈ xs.drop low) :
    p x = false := by
  obtain ⟨i, hi, rfl⟩ := List.mem_drop_iff_getElem.mp hx
  exact h.failed (low + i) (by omega) (by omega)

end Narrowed

/-! ## Runs and insertion -/

section Runs

variable {less : α → α → Except ε Bool} {cmp : α → α → Ordering} [TransCmp cmp]
variable {whole : List α}

theorem returns_splitAscending (h : Answers less cmp whole) (last : α) (xs : List α)
    (hsub : last :: xs ⊆ whole) :
    Returns (splitAscending less last xs) fun r =>
      r.1 ++ r.2 = xs ∧ InOrder cmp (last :: r.1) := by
  induction xs generalizing last with
  | nil => exact ⟨rfl, List.pairwise_singleton ..⟩
  | cons x rest ih =>
      obtain ⟨hlast, hxrest⟩ := List.cons_subset.mp hsub
      have hx : x ∈ whole := hxrest (List.mem_cons_self ..)
      rw [splitAscending, h x hx last hlast, ok_bind]
      cases hc : cmp x last == .lt with
      | true => exact ⟨rfl, List.pairwise_singleton ..⟩
      | false =>
          refine (ih x hxrest).bind fun r hr => ?_
          exact ⟨congrArg (x :: ·) hr.1, hr.2.cons_of_isLE (isLE_of_not_lt hc)⟩

theorem returns_splitDescending (h : Answers less cmp whole) (last : α) (xs : List α)
    (hsub : last :: xs ⊆ whole) :
    Returns (splitDescending less last xs) fun r =>
      r.1 ++ r.2 = xs ∧ (last :: r.1).Pairwise fun a b => cmp b a = .lt := by
  induction xs generalizing last with
  | nil => exact ⟨rfl, List.pairwise_singleton ..⟩
  | cons x rest ih =>
      obtain ⟨hlast, hxrest⟩ := List.cons_subset.mp hsub
      have hx : x ∈ whole := hxrest (List.mem_cons_self ..)
      rw [splitDescending, h x hx last hlast, ok_bind]
      cases hc : cmp x last == .lt with
      | true =>
          have hlt : cmp x last = .lt := by simpa using hc
          refine (ih x hxrest).bind fun r hr => ⟨congrArg (x :: ·) hr.1, ?_⟩
          exact List.pairwise_cons_cons_iff_of_trans.mpr ⟨hlt, hr.2⟩
      | false => exact ⟨rfl, List.pairwise_singleton ..⟩

/-- A run in strictly reverse order has no ties, so it may be turned
round. -/
theorem returns_splitRun (h : Answers less cmp whole) (xs : List α) (hsub : xs ⊆ whole) :
    Returns (splitRun less xs) fun r =>
      InOrder cmp r.1 ∧ Rearranged cmp xs (r.1 ++ r.2) := by
  match xs with
  | [] => exact ⟨List.Pairwise.nil, Rearranged.refl []⟩
  | [x] => exact ⟨List.pairwise_singleton .., Rearranged.refl [x]⟩
  | x :: y :: rest =>
      obtain ⟨hx, hyrest⟩ := List.cons_subset.mp hsub
      have hy : y ∈ whole := hyrest (List.mem_cons_self ..)
      rw [splitRun, h y hy x hx, ok_bind]
      cases hc : cmp y x == .lt with
      | true =>
          have hlt : cmp y x = .lt := by simpa using hc
          refine (returns_splitDescending h y rest hyrest).bind fun r hr => ?_
          have hdescending : (x :: y :: r.1).Pairwise fun a b => cmp b a = .lt :=
            List.pairwise_cons_cons_iff_of_trans.mpr ⟨hlt, hr.2⟩
          refine ⟨?_, ?_⟩
          · exact List.pairwise_reverse.mpr (hdescending.imp Ordering.isLE_of_eq_lt)
          · rw [← hr.1]
            refine (rearranged_reverse (hdescending.imp ?_)).append (Rearranged.refl r.2)
            intro a b hba hab
            rw [OrientedCmp.eq_symm hab] at hba
            cases hba
      | false =>
          refine (returns_splitAscending h y rest hyrest).bind fun r hr => ?_
          refine ⟨hr.2.cons_of_isLE (isLE_of_not_lt hc), ?_⟩
          rw [← hr.1]
          exact Rearranged.refl _

/-- The element is not less than the one at a place, as `place` asks it. -/
theorem passFirst_not_lt {sorted : List α} (h : InOrder cmp sorted) (x : α) :
    PassFirst (fun y => !(cmp x y == .lt)) sorted := by
  refine h.imp ?_
  intro y z hyz hz
  by_contra hxy
  have hlt : cmp x y = .lt := by simpa using hxy
  simp [TransCmp.lt_of_lt_of_isLE hlt hyz] at hz

theorem returns_place (h : Answers less cmp whole) {x : α} {sorted : List α} (hx : x ∈ whole)
    (hsub : sorted ⊆ whole) (hin : InOrder cmp sorted) (fuel low high : Nat)
    (hfuel : high < low + fuel)
    (hplace : Narrowed (fun y => !(cmp x y == .lt)) sorted low high) :
    Returns (place less x sorted fuel low high) fun i =>
      Narrowed (fun y => !(cmp x y == .lt)) sorted i i := by
  have hpass := passFirst_not_lt hin x
  induction fuel generalizing low high with
  | zero => exact absurd hfuel (Nat.not_lt.mpr hplace.low_le)
  | succ fuel ih =>
      rw [place]
      split
      · rename_i hlt
        have hlength : low + (high - low) / 2 < sorted.length := by
          have := hplace.high_le
          omega
        dsimp only
        rw [List.getElem?_eq_getElem hlength]
        dsimp only
        rw [h x hx _ (hsub (List.getElem_mem hlength)), ok_bind]
        cases hc : cmp x sorted[low + (high - low) / 2] == .lt with
        | true =>
            refine ih _ _ (by omega) (hplace.below hpass (by omega) (by omega) ?_)
            intro _
            simp [hc]
        | false =>
            refine ih _ _ (by omega) (hplace.above hpass (by omega) ?_)
            intro _
            simp [hc]
      · rename_i hge
        obtain rfl : low = high := Nat.le_antisymm hplace.low_le (Nat.not_lt.mp hge)
        exact hplace

/-- An element inserted behind all that are not greater passes greater
ones only. -/
theorem returns_insert (h : Answers less cmp whole) {x : α} {sorted : List α} (hx : x ∈ whole)
    (hsub : sorted ⊆ whole) (hin : InOrder cmp sorted) :
    Returns (insert less sorted x) fun r =>
      InOrder cmp r ∧ Rearranged cmp (sorted ++ [x]) r := by
  refine (returns_place h hx hsub hin _ _ _ (by omega) (narrowed_all _ sorted)).bind
    fun i hi => ?_
  have hbefore : ∀ y ∈ sorted.take i, (cmp y x).isLE = true := by
    intro y hy
    exact isLE_of_not_lt (by simpa using hi.of_mem_take hy)
  have hbehind : ∀ y ∈ sorted.drop i, cmp x y = .lt := by
    intro y hy
    simpa using hi.of_mem_drop hy
  rw [← List.take_append_drop i sorted] at hin
  obtain ⟨htake, hdrop, hacross⟩ := List.pairwise_append.mp hin
  refine ⟨?_, ?_⟩
  · refine List.pairwise_append.mpr ⟨htake, ?_, ?_⟩
    · exact inOrder_cons.mpr ⟨fun y hy => Ordering.isLE_of_eq_lt (hbehind y hy), hdrop⟩
    · intro y hy z hz
      rcases List.mem_cons.mp hz with rfl | hz
      · exact hbefore y hy
      · exact hacross y hy z hz
  · have hpast : Rearranged cmp (sorted.drop i ++ [x]) (x :: sorted.drop i) := by
      refine rearranged_past ?_
      intro y hy heq
      rw [hbehind y hy] at heq
      cases heq
    have hmove := (Rearranged.refl (sorted.take i)).append hpast
    rwa [← List.append_assoc, List.take_append_drop] at hmove

theorem returns_insertAll (h : Answers less cmp whole) (sorted xs : List α)
    (hsub : sorted ++ xs ⊆ whole) (hin : InOrder cmp sorted) :
    Returns (insertAll less sorted xs) fun r =>
      InOrder cmp r ∧ Rearranged cmp (sorted ++ xs) r := by
  induction xs generalizing sorted with
  | nil =>
      rw [List.append_nil]
      exact ⟨hin, Rearranged.refl sorted⟩
  | cons x rest ih =>
      obtain ⟨hsorted, hxrest⟩ := List.append_subset.mp hsub
      obtain ⟨hx, hrest⟩ := List.cons_subset.mp hxrest
      refine (returns_insert h hx hsorted hin).bind fun r hr => ?_
      have hmove : Rearranged cmp (sorted ++ x :: rest) (r ++ rest) := by
        simpa using hr.2.append (Rearranged.refl rest)
      have hsub' : r ++ rest ⊆ whole := fun y hy => hsub (hmove.mem_iff.mp hy)
      exact (ih r hsub' hr.1).mono (fun s hs => ⟨hs.1, hmove.trans hs.2⟩) fun _ he => he

theorem returns_nextRun (h : Answers less cmp whole) (wanted : Nat) (xs : List α)
    (hsub : xs ⊆ whole) :
    Returns (nextRun less wanted xs) fun r =>
      InOrder cmp r.1 ∧ Rearranged cmp xs (r.1 ++ r.2) := by
  refine (returns_splitRun h xs hsub).bind fun r hr => ?_
  obtain ⟨hin, hmove⟩ := hr
  have hall : r.1 ++ r.2 ⊆ whole := fun y hy => hsub (hmove.mem_iff.mp hy)
  have htaken : r.1 ++ r.2.take (wanted - r.1.length) ⊆ whole :=
    List.Subset.trans ((List.take_sublist ..).append_left r.1).subset hall
  refine (returns_insertAll h r.1 _ htaken hin).bind fun run hrun => ⟨hrun.1, ?_⟩
  have hrest := hrun.2.append (Rearranged.refl (r.2.drop (wanted - r.1.length)))
  rw [List.append_assoc, List.take_append_drop] at hrest
  exact hmove.trans hrest

end Runs

end DocStore.Sorting
