import DocStore.Proofs.Sorting.Rearrangement
import DocStore.Sorting.Merge

/-!
# Merging exchanges no ties

Two neighbouring runs that are in order are merged into one that is in
order, and no ties are exchanged (`returns_mergeRuns`). What is counted by
probing and halving is the number of elements that pass a test, if they
all stand in front (`returns_countFront`).

A merge from the back is a merge from the front of the reversed runs, by
the reversed comparison and with the runs in the other order; so both are
treated at once, by the comparison (`Side.turn`) and the order of the runs
(`Side.row`) that belong to the end. Either run may supply the next
element if it comes before all of the other run (`Merged.takeLeft`,
`Merged.takeRight`); a merge may close with a last element because that
one lies behind the whole other run (`Closed`).
-/

namespace DocStore.Sorting

open Std

variable {ε α : Type}

/-! ## Counting -/

section Counting

variable {test : α → Except ε Bool} {p : α → Bool} {xs : List α}

theorem returns_probe (htest : ∀ x ∈ xs, test x = .ok (p x)) (hp : PassFirst p xs)
    {passed next : Nat} (hlt : passed < next) (hlength : passed < xs.length)
    (hpass : p xs[passed] = true) :
    Returns (probe test xs passed next) fun r => Narrowed p xs (r.1 + 1) r.2 := by
  fun_induction probe test xs passed next with
  | case1 passed next h ih =>
      rw [htest _ (List.getElem_mem h), ok_bind]
      cases hc : p xs[next] with
      | true => exact ih (by omega) h hc
      | false =>
          have hbelow : Narrowed p xs 0 next :=
            (narrowed_all p xs).below hp (Nat.zero_le _) (Nat.le_of_lt h) fun _ => hc
          exact hbelow.above hp hlt fun _ => hpass
  | case2 passed next h => exact (narrowed_all p xs).above hp hlength fun _ => hpass

theorem returns_halve (htest : ∀ x ∈ xs, test x = .ok (p x)) (hp : PassFirst p xs) (side : Side)
    {low high : Nat} (h : Narrowed p xs low high) :
    Returns (halve side test xs low high) fun i => Narrowed p xs i i := by
  fun_induction halve side test xs low high with
  | case1 low high hrange hlt hle ihabove ihbelow =>
      rw [htest _ (List.get_mem ..), ok_bind, List.get_eq_getElem]
      cases hc : p xs[side.middle low high] with
      | true => exact ihabove (h.above hp hlt fun _ => hc)
      | false =>
          exact ihbelow (h.below hp hle (Nat.le_trans (Nat.le_of_lt hlt) hrange.2) fun _ => hc)
  | case2 low high hrange =>
      obtain rfl : low = high := by
        have := h.low_le
        have := h.high_le
        omega
      exact h

theorem returns_countFront (htest : ∀ x ∈ xs, test x = .ok (p x)) (hp : PassFirst p xs)
    (side : Side) : Returns (countFront side test xs) fun i => Narrowed p xs i i := by
  cases xs with
  | nil => exact narrowed_all p []
  | cons x rest =>
      rw [countFront, htest x (List.mem_cons_self ..), ok_bind]
      cases hc : p x with
      | true =>
          refine (returns_probe htest hp Nat.zero_lt_one (Nat.zero_lt_succ _) hc).bind
            fun r hr => ?_
          exact returns_halve htest hp side hr
      | false =>
          exact (narrowed_all p (x :: rest)).below hp (Nat.le_refl _) (Nat.zero_le _) fun _ => hc

end Counting

/-! ## The two ends -/

/-- The comparison, seen from the end where runs are merged. -/
def Side.turn (side : Side) (cmp : α → α → Ordering) : α → α → Ordering :=
  match side with
  | .front => cmp
  | .back => fun a b => cmp b a

/-- The two runs in a row, seen from the end where they are merged. -/
def Side.row (side : Side) (left right : List α) : List α :=
  match side with
  | .front => left ++ right
  | .back => right ++ left

/-- The element of the right run comes before that of the left one, at the
end where runs are merged. -/
def rightFirst (cmp : α → α → Ordering) (side : Side) (r l : α) : Bool :=
  match side with
  | .front => cmp r l == .lt
  | .back => !(cmp r l == .lt)

section Ends

variable {cmp : α → α → Ordering} {side : Side} {left right : List α} {l r x : α}

instance [TransCmp cmp] : TransCmp (side.turn cmp) := by
  cases side with
  | front => exact inferInstanceAs (TransCmp cmp)
  | back => exact inferInstanceAs (TransCmp fun a b => cmp b a)

theorem InOrder.reverse {xs : List α} (h : InOrder cmp xs) :
    InOrder (Side.back.turn cmp) xs.reverse :=
  List.pairwise_reverse.mpr h

theorem mem_row : x ∈ side.row left right ↔ x ∈ left ∨ x ∈ right := by
  cases side <;> simp [Side.row, or_comm]

theorem returns_rightNext {less : α → α → Except ε Bool} {whole : List α}
    (h : Answers less cmp whole) (hr : r ∈ whole) (hl : l ∈ whole) :
    rightNext less side r l = .ok (rightFirst cmp side r l) := by
  cases side <;> simp [rightNext, rightFirst, h r hr l hl, map_ok]

variable [TransCmp cmp]

theorem isLE_of_rightFirst (h : rightFirst cmp side r l = true) :
    (side.turn cmp r l).isLE = true := by
  cases side with
  | front =>
      have hlt : cmp r l = .lt := by simpa [rightFirst] using h
      exact Ordering.isLE_of_eq_lt hlt
  | back =>
      have hnot : (cmp r l == .lt) = false := by simpa [rightFirst] using h
      exact isLE_of_not_lt hnot

theorem isLE_of_not_rightFirst (h : rightFirst cmp side r l = false) :
    (side.turn cmp l r).isLE = true := by
  cases side with
  | front => exact isLE_of_not_lt h
  | back =>
      have hlt : cmp r l = .lt := by simpa [rightFirst] using h
      exact Ordering.isLE_of_eq_lt hlt

/-- Elements that come before one of the right run stand in front. -/
theorem passFirst_left (h : InOrder (side.turn cmp) left) (r : α) :
    PassFirst (fun x => !rightFirst cmp side r x) left := by
  cases side with
  | front => exact passFirst_not_lt h r
  | back =>
      refine h.imp ?_
      intro x y hyx hy
      have hlt : cmp r y = .lt := by simpa [rightFirst] using hy
      simp [rightFirst, TransCmp.lt_of_lt_of_isLE hlt hyx]

/-- Elements that come before one of the left run stand in front. -/
theorem passFirst_right (h : InOrder (side.turn cmp) right) (l : α) :
    PassFirst (fun y => rightFirst cmp side y l) right := by
  cases side with
  | front =>
      refine h.imp ?_
      intro x y hxy hy
      have hlt : cmp y l = .lt := by simpa [rightFirst] using hy
      have hle : (cmp x y).isLE = true := hxy
      simp [rightFirst, TransCmp.lt_of_isLE_of_lt hle hlt]
  | back =>
      refine h.imp ?_
      intro x y hyx hy
      by_contra hx
      have hlt : cmp x l = .lt := by simpa [rightFirst] using hx
      have hle : (cmp y x).isLE = true := hyx
      simp [rightFirst, TransCmp.lt_of_isLE_of_lt hle hlt] at hy

end Ends

/-! ## Taking elements -/

section Taking

variable (cmp : α → α → Ordering) (side : Side)

/-- The merge of two runs, at one of their ends. -/
structure Merged (left right merged : List α) : Prop where
  inOrder : InOrder (side.turn cmp) merged
  rearranged : Rearranged cmp (side.row left right) merged

variable {cmp side} [TransCmp cmp] {left right merged : List α} {l r : α}

theorem Merged.mem (h : Merged cmp side left right merged) {x : α} (hx : x ∈ merged) :
    x ∈ left ∨ x ∈ right :=
  mem_row.mp (h.rearranged.mem_iff.mp hx)

/-- The right run supplies an element that comes before the whole left
one. -/
theorem Merged.takeRight (h : Merged cmp side left right merged)
    (hin : InOrder (side.turn cmp) (r :: right))
    (hfirst : ∀ x ∈ left, rightFirst cmp side r x = true) :
    Merged cmp side left (r :: right) (r :: merged) where
  inOrder := by
    refine inOrder_cons.mpr ⟨?_, h.inOrder⟩
    intro x hx
    rcases h.mem hx with hx | hx
    · exact isLE_of_rightFirst (hfirst x hx)
    · exact (inOrder_cons.mp hin).1 x hx
  rearranged := by
    cases side with
    | front =>
        refine (rearranged_past_append ?_ right).trans (h.rearranged.cons r)
        intro x hx heq
        have hlt := hfirst x hx
        simp [rightFirst, heq] at hlt
    | back => exact h.rearranged.cons r

/-- The left run supplies an element that comes before the whole right
one. -/
theorem Merged.takeLeft (h : Merged cmp side left right merged)
    (hin : InOrder (side.turn cmp) (l :: left))
    (hfirst : ∀ y ∈ right, rightFirst cmp side y l = false) :
    Merged cmp side (l :: left) right (l :: merged) where
  inOrder := by
    refine inOrder_cons.mpr ⟨?_, h.inOrder⟩
    intro x hx
    rcases h.mem hx with hx | hx
    · exact (inOrder_cons.mp hin).1 x hx
    · exact isLE_of_not_rightFirst (hfirst x hx)
  rearranged := by
    cases side with
    | front => exact h.rearranged.cons l
    | back =>
        refine (rearranged_past_append ?_ left).trans (h.rearranged.cons l)
        intro y hy heq
        have hlt := hfirst y hy
        simp [rightFirst, OrientedCmp.eq_symm heq] at hlt

theorem Merged.takeAllRight (taken : List α) (h : Merged cmp side left right merged)
    (hin : InOrder (side.turn cmp) (taken ++ right))
    (hfirst : ∀ y ∈ taken, ∀ x ∈ left, rightFirst cmp side y x = true) :
    Merged cmp side left (taken ++ right) (taken ++ merged) := by
  induction taken with
  | nil => exact h
  | cons y taken ih =>
      have hrest := ih (inOrder_cons.mp hin).2 fun z hz => hfirst z (List.mem_cons_of_mem y hz)
      exact hrest.takeRight hin (hfirst y (List.mem_cons_self ..))

theorem Merged.takeAllLeft (taken : List α) (h : Merged cmp side left right merged)
    (hin : InOrder (side.turn cmp) (taken ++ left))
    (hfirst : ∀ x ∈ taken, ∀ y ∈ right, rightFirst cmp side y x = false) :
    Merged cmp side (taken ++ left) right (taken ++ merged) := by
  induction taken with
  | nil => exact h
  | cons x taken ih =>
      have hrest := ih (inOrder_cons.mp hin).2 fun z hz => hfirst z (List.mem_cons_of_mem x hz)
      exact hrest.takeLeft hin (hfirst x (List.mem_cons_self ..))

omit [TransCmp cmp] in
theorem merged_left (h : InOrder (side.turn cmp) left) : Merged cmp side left [] left := by
  refine ⟨h, ?_⟩
  cases side <;> simp [Side.row, Rearranged.refl]

omit [TransCmp cmp] in
theorem merged_right (h : InOrder (side.turn cmp) right) : Merged cmp side [] right right := by
  refine ⟨h, ?_⟩
  cases side <;> simp [Side.row, Rearranged.refl]

end Taking

/-! ## Closing a merge -/

section Closing

variable (cmp : α → α → Ordering) (side : Side)

/-- The last element of the run that was the shorter one lies behind the
whole other run. -/
def Closed (left right : List α) : Prop :=
  match side with
  | .front => ∀ l ∈ left.getLast?, ∀ r ∈ right, rightFirst cmp .front r l = true
  | .back => ∀ r ∈ right.getLast?, ∀ l ∈ left, rightFirst cmp .back r l = false

/-- Two runs that can be merged at one of their ends. -/
structure Mergeable (whole left right : List α) : Prop where
  left_sub : left ⊆ whole
  right_sub : right ⊆ whole
  left_inOrder : InOrder (side.turn cmp) left
  right_inOrder : InOrder (side.turn cmp) right
  closed : Closed cmp side left right

variable {cmp side} {whole left right left' right' : List α}

theorem getLast?_of_suffix {xs ys : List α} {x : α} (h : ys <:+ xs) (hx : x ∈ ys.getLast?) :
    x ∈ xs.getLast? := by
  obtain ⟨front, rfl⟩ := h
  rw [Option.mem_def] at hx ⊢
  rw [List.getLast?_append, hx]
  rfl

/-- What is left of the runs can be merged. -/
theorem Mergeable.suffix (h : Mergeable cmp side whole left right) (hleft : left' <:+ left)
    (hright : right' <:+ right) : Mergeable cmp side whole left' right' where
  left_sub := List.Subset.trans hleft.subset h.left_sub
  right_sub := List.Subset.trans hright.subset h.right_sub
  left_inOrder := h.left_inOrder.sublist hleft.sublist
  right_inOrder := h.right_inOrder.sublist hright.sublist
  closed := by
    have hclosed := h.closed
    cases side with
    | front =>
        intro l hl r hr
        exact hclosed l (getLast?_of_suffix hleft hl) r (hright.subset hr)
    | back =>
        intro r hr l hl
        exact hclosed r (getLast?_of_suffix hright hr) l (hleft.subset hl)

variable [TransCmp cmp]

variable {l r : α}

/-- The last element of the left run follows the whole right one. -/
theorem merged_front_last (h : Mergeable cmp .front whole [l] right) :
    Merged cmp .front [l] right (right ++ [l]) := by
  have hall : ∀ r ∈ right, ∀ x ∈ [l], rightFirst cmp .front r x = true := by
    intro r hr x hx
    obtain rfl := List.mem_singleton.mp hx
    exact h.closed x rfl r hr
  have hmerged := (merged_left h.left_inOrder).takeAllRight right
    (by simpa using h.right_inOrder) hall
  rwa [List.append_nil] at hmerged

/-- Seen from the back, the first element of the right run follows the
whole left one. -/
theorem merged_back_last (h : Mergeable cmp .back whole left [r]) :
    Merged cmp .back left [r] (left ++ [r]) := by
  have hall : ∀ l ∈ left, ∀ y ∈ [r], rightFirst cmp .back y l = false := by
    intro l hl y hy
    obtain rfl := List.mem_singleton.mp hy
    exact h.closed y rfl l hl
  have hmerged := (merged_right h.right_inOrder).takeAllLeft left
    (by simpa using h.left_inOrder) hall
  rwa [List.append_nil] at hmerged

theorem merged_of_remainder {rest : List α} (h : Mergeable cmp side whole left right)
    (hrest : remainder? side left right = some rest) : Merged cmp side left right rest := by
  unfold remainder? at hrest
  split at hrest
  · exact Option.some.inj hrest ▸ merged_left h.left_inOrder
  · exact Option.some.inj hrest ▸ merged_right h.right_inOrder
  · exact Option.some.inj hrest ▸ merged_front_last h
  · exact Option.some.inj hrest ▸ merged_back_last h
  · cases hrest

end Closing

/-! ## Merging -/

section Merging

variable {less : α → α → Except ε Bool} {cmp : α → α → Ordering} [TransCmp cmp] {side : Side}
variable {whole left right : List α} {l r : α} {merged : Except ε (List α × Nat)}

variable (cmp side) in
/-- A computation that merges two runs. -/
def MergesTo (left right : List α) (merged : Except ε (List α × Nat)) : Prop :=
  Returns merged fun m => Merged cmp side left right m.1

/-- The merge goes on unless nothing is left to compare. -/
theorem MergesTo.remainder (h : MergesTo cmp side left right merged)
    (hruns : Mergeable cmp side whole left right) (patience : Nat) :
    MergesTo cmp side left right
      (match remainder? side left right with
        | some rest => .ok (rest, patience)
        | none => merged) := by
  split
  · rename_i rest hrest
    exact merged_of_remainder hruns hrest
  · exact h

theorem MergesTo.takeRight (taken : List α) (h : MergesTo cmp side left right merged)
    (hruns : Mergeable cmp side whole left (taken ++ right))
    (hfirst : ∀ y ∈ taken, ∀ x ∈ left, rightFirst cmp side y x = true) :
    MergesTo cmp side left (taken ++ right) (prepend taken merged) :=
  EndsIn.map h fun _ hm => hm.takeAllRight taken hruns.right_inOrder hfirst

theorem MergesTo.takeLeft (taken : List α) (h : MergesTo cmp side left right merged)
    (hruns : Mergeable cmp side whole (taken ++ left) right)
    (hfirst : ∀ x ∈ taken, ∀ y ∈ right, rightFirst cmp side y x = false) :
    MergesTo cmp side (taken ++ left) right (prepend taken merged) :=
  EndsIn.map h fun _ hm => hm.takeAllLeft taken hruns.left_inOrder hfirst

/-- The left run supplies what comes before the next element of the right
one. -/
theorem MergesTo.stretchLeft (h : Answers less cmp whole)
    (hruns : Mergeable cmp side whole left (r :: right))
    {further : Nat → Except ε (List α × Nat)} (patience : Nat)
    (hfurther : ∀ i, Mergeable cmp side whole (left.drop i) (r :: right) →
      (∀ x ∈ left.drop i, rightFirst cmp side r x = true) →
      MergesTo cmp side (left.drop i) (r :: right) (further i)) :
    MergesTo cmp side left (r :: right) (do
      let i ← countFront side (fun x => (rightNext less side r x).map not) left
      prepend (left.take i) <|
        match remainder? side (left.drop i) (r :: right) with
        | some rest => .ok (rest, patience)
        | none => further i) := by
  have hr : r ∈ whole := hruns.right_sub (List.mem_cons_self ..)
  have htest : ∀ x ∈ left,
      (rightNext less side r x).map not = .ok (!rightFirst cmp side r x) := by
    intro x hx
    rw [returns_rightNext h hr (hruns.left_sub hx), map_ok]
  refine (returns_countFront htest (passFirst_left hruns.left_inOrder r) side).bind fun i hi => ?_
  have hdrop := hruns.suffix (List.drop_suffix i left) (List.suffix_refl _)
  have hpast : ∀ x ∈ left.drop i, rightFirst cmp side r x = true := by
    intro x hx
    simpa using hi.of_mem_drop hx
  have htaken : ∀ x ∈ left.take i, ∀ y ∈ r :: right, rightFirst cmp side y x = false := by
    intro x hx
    exact (passFirst_right hruns.right_inOrder x).all_fail (by simpa using hi.of_mem_take hx)
  have hall := MergesTo.takeLeft (left.take i)
    (.remainder (hfurther i hdrop hpast) hdrop patience) (by rwa [List.take_append_drop]) htaken
  rwa [List.take_append_drop] at hall

/-- The right run supplies what comes before the next element of the left
one. -/
theorem MergesTo.stretchRight (h : Answers less cmp whole)
    (hruns : Mergeable cmp side whole (l :: left) right)
    {further : Nat → Except ε (List α × Nat)} (patience : Nat)
    (hfurther : ∀ j, Mergeable cmp side whole (l :: left) (right.drop j) →
      (∀ y ∈ right.drop j, rightFirst cmp side y l = false) →
      MergesTo cmp side (l :: left) (right.drop j) (further j)) :
    MergesTo cmp side (l :: left) right (do
      let j ← countFront side (fun y => rightNext less side y l) right
      prepend (right.take j) <|
        match remainder? side (l :: left) (right.drop j) with
        | some rest => .ok (rest, patience)
        | none => further j) := by
  have hl : l ∈ whole := hruns.left_sub (List.mem_cons_self ..)
  have htest : ∀ y ∈ right, rightNext less side y l = .ok (rightFirst cmp side y l) :=
    fun y hy => returns_rightNext h (hruns.right_sub hy) hl
  refine (returns_countFront htest (passFirst_right hruns.right_inOrder l) side).bind
    fun j hj => ?_
  have hdrop := hruns.suffix (List.suffix_refl _) (List.drop_suffix j right)
  have hpast : ∀ y ∈ right.drop j, rightFirst cmp side y l = false :=
    fun y hy => hj.of_mem_drop hy
  have htaken : ∀ y ∈ right.take j, ∀ x ∈ l :: left, rightFirst cmp side y x = true := by
    intro y hy x hx
    have hfirst := (passFirst_left hruns.left_inOrder y).all_fail
      (by simpa using hj.of_mem_take hy) x hx
    simpa using hfirst
  have hall := MergesTo.takeRight (right.take j)
    (.remainder (hfurther j hdrop hpast) hdrop patience) (by rwa [List.take_append_drop]) htaken
  rwa [List.take_append_drop] at hall

variable (less cmp side whole) in
/-- Runs of fewer elements are merged in either way. -/
def MergesBelow (n : Nat) : Prop :=
  ∀ left right : List α, left.length + right.length < n → Mergeable cmp side whole left right →
    (∀ patience leftWins rightWins, MergesTo cmp side left right
      (mergeSingly less side patience leftWins rightWins left right)) ∧
    ∀ patience, MergesTo cmp side left right (mergeStretches less side patience left right)

theorem mergesTo_mergeSingly_of_below (h : Answers less cmp whole)
    (hruns : Mergeable cmp side whole left right)
    (hbelow : MergesBelow less cmp side whole (left.length + right.length))
    (patience leftWins rightWins : Nat) :
    MergesTo cmp side left right
      (mergeSingly less side patience leftWins rightWins left right) := by
  unfold mergeSingly
  split
  · rename_i l left r right
    have hr : r ∈ whole := hruns.right_sub (List.mem_cons_self ..)
    have hl : l ∈ whole := hruns.left_sub (List.mem_cons_self ..)
    rw [returns_rightNext h hr hl, ok_bind]
    cases hc : rightFirst cmp side r l with
    | true =>
        have hrest := hruns.suffix (List.suffix_refl _) (List.suffix_cons r right)
        obtain ⟨hsingly, hstretches⟩ := hbelow _ _ (by simp only [List.length_cons]; omega) hrest
        have hfirst : ∀ y ∈ [r], ∀ x ∈ l :: left, rightFirst cmp side y x = true := by
          intro y hy x hx
          obtain rfl := List.mem_singleton.mp hy
          simpa using (passFirst_left hruns.left_inOrder y).all_fail (by simp [hc]) x hx
        refine MergesTo.takeRight [r] (.remainder ?_ hrest patience) hruns hfirst
        split
        · exact hstretches _
        · exact hsingly _ _ _
    | false =>
        have hrest := hruns.suffix (List.suffix_cons l left) (List.suffix_refl _)
        obtain ⟨hsingly, hstretches⟩ := hbelow _ _ (by simp only [List.length_cons]; omega) hrest
        have hfirst : ∀ x ∈ [l], ∀ y ∈ r :: right, rightFirst cmp side y x = false := by
          intro x hx
          obtain rfl := List.mem_singleton.mp hx
          exact (passFirst_right hruns.right_inOrder x).all_fail hc
        refine MergesTo.takeLeft [l] (.remainder ?_ hrest patience) hruns hfirst
        split
        · exact hstretches _
        · exact hsingly _ _ _
  · rename_i hne
    cases left with
    | nil => exact merged_right hruns.right_inOrder
    | cons l left =>
        cases right with
        | nil =>
            rw [List.append_nil]
            exact merged_left hruns.left_inOrder
        | cons r right => exact absurd rfl (hne l left r right rfl)

theorem mergesTo_mergeStretches_of_below (h : Answers less cmp whole)
    (hruns : Mergeable cmp side whole left right)
    (hbelow : MergesBelow less cmp side whole (left.length + right.length)) (patience : Nat) :
    MergesTo cmp side left right (mergeStretches less side patience left right) := by
  unfold mergeStretches
  split
  · exact merged_left hruns.left_inOrder
  · rename_i r right
    refine MergesTo.stretchLeft h hruns _ fun i hdrop hpast => ?_
    have hdrop' := hdrop.suffix (List.suffix_refl _) (List.suffix_cons r right)
    refine MergesTo.takeRight [r] (.remainder ?_ hdrop' _) hdrop ?_
    · split
      · rename_i hnil
        rw [hnil]
        exact merged_right hdrop'.right_inOrder
      · rename_i l left' hcons
        have hlength := congrArg List.length hcons
        rw [List.length_drop, List.length_cons] at hlength
        dsimp only
        rw [hcons] at hdrop' ⊢
        refine MergesTo.stretchRight h hdrop' _ fun j hrest hpast' => ?_
        have hrest' := hrest.suffix (List.suffix_cons l left') (List.suffix_refl _)
        refine MergesTo.takeLeft [l] (.remainder ?_ hrest' _) hrest ?_
        · obtain ⟨hsingly, hstretches⟩ := hbelow _ _
            (by simp only [List.length_drop, List.length_cons]; omega) hrest'
          split
          · exact hstretches _
          · exact hsingly _ _ _
        · intro x hx y hy
          obtain rfl := List.mem_singleton.mp hx
          exact hpast' y hy
    · intro y hy x hx
      obtain rfl := List.mem_singleton.mp hy
      exact hpast x hx

/-- Each way to merge goes over to the other, so both are treated at
once. -/
theorem mergesBelow (h : Answers less cmp whole) (n : Nat) : MergesBelow less cmp side whole n := by
  induction n with
  | zero => exact fun left right hn => absurd hn (Nat.not_lt_zero _)
  | succ n ih =>
      intro left right hn hruns
      have hbelow : MergesBelow less cmp side whole (left.length + right.length) :=
        fun left' right' hn' => ih left' right' (by omega)
      exact ⟨mergesTo_mergeSingly_of_below h hruns hbelow,
        mergesTo_mergeStretches_of_below h hruns hbelow⟩

theorem mergesTo_mergeSingly (h : Answers less cmp whole)
    (hruns : Mergeable cmp side whole left right) (patience leftWins rightWins : Nat) :
    MergesTo cmp side left right
      (mergeSingly less side patience leftWins rightWins left right) :=
  (mergesBelow h _ left right (Nat.lt_succ_self _) hruns).1 ..

theorem InOrder.isLE_getLast {xs : List α} {x l : α} (h : InOrder cmp xs) (hl : l ∈ xs.getLast?)
    (hx : x ∈ xs) : (cmp x l).isLE = true := by
  obtain ⟨front, rfl⟩ := List.getLast?_eq_some_iff.mp hl
  rcases List.mem_append.mp hx with hx | hx
  · exact (List.pairwise_append.mp h).2.2 x hx l (List.mem_singleton.mpr rfl)
  · rw [List.mem_singleton.mp hx]
    exact ReflCmp.isLE_rfl

/-- The first of all elements is the first one of the right run, and the
last of all is the last one of the left run. -/
theorem returns_mergeOverlap (h : Answers less cmp whole) (patience : Nat)
    (hleft : left ⊆ whole) (hright : right ⊆ whole) (hinleft : InOrder cmp left)
    (hinright : InOrder cmp right) (hfirst : ∀ r ∈ right.head?, ∀ l ∈ left, cmp r l = .lt)
    (hlast : ∀ l ∈ left.getLast?, ∀ r ∈ right, cmp r l = .lt) :
    Returns (mergeOverlap less patience left right) fun m =>
      InOrder cmp m.1 ∧ Rearranged cmp (left ++ right) m.1 := by
  unfold mergeOverlap
  split
  · split
    · rw [List.append_nil]
      exact ⟨hinleft, Rearranged.refl left⟩
    · rename_i r right hle
      have hruns : Mergeable cmp .front whole left (r :: right) := by
        refine ⟨hleft, hright, hinleft, hinright, ?_⟩
        intro l hl y hy
        simp [rightFirst, hlast l hl y hy]
      have hrest := hruns.suffix (List.suffix_refl left) (List.suffix_cons r right)
      have hmerge := MergesTo.takeRight [r]
        (.remainder (mergesTo_mergeSingly h hrest patience 0 0) hrest patience) hruns ?_
      · exact hmerge.mono (fun m hm => ⟨hm.inOrder, hm.rearranged⟩) fun _ he => he
      · intro y hy x hx
        obtain rfl := List.mem_singleton.mp hy
        simp [rightFirst, hfirst y rfl x hx]
  · split
    · rename_i hle hnil
      obtain rfl := List.reverse_eq_nil_iff.mp hnil
      exact ⟨hinright, Rearranged.refl right⟩
    · rename_i hle l left' hreverse
      have hlast' : l ∈ left.getLast? := by
        rw [← List.head?_reverse, hreverse]
        rfl
      have hruns : Mergeable cmp .back whole (l :: left') right.reverse := by
        rw [← hreverse]
        refine ⟨?_, ?_, hinleft.reverse, hinright.reverse, ?_⟩
        · exact fun x hx => hleft (List.mem_reverse.mp hx)
        · exact fun y hy => hright (List.mem_reverse.mp hy)
        · intro r hr x hx
          rw [List.getLast?_reverse] at hr
          simp [rightFirst, hfirst r hr x (List.mem_reverse.mp hx)]
      have hrest := hruns.suffix (List.suffix_cons l left') (List.suffix_refl _)
      have hmerge := MergesTo.takeLeft [l]
        (.remainder (mergesTo_mergeSingly h hrest patience 0 0) hrest patience) hruns ?_
      · -- seen from the front again
        refine EndsIn.map hmerge fun m hm => ⟨List.pairwise_reverse.mpr hm.inOrder, ?_⟩
        have hback : Rearranged cmp (right.reverse ++ left.reverse) m.1 := by
          rw [hreverse]
          exact hm.rearranged
        have hfront := hback.reverse
        rwa [List.reverse_append, List.reverse_reverse, List.reverse_reverse] at hfront
      · intro x hx y hy
        obtain rfl := List.mem_singleton.mp hx
        simp [rightFirst, hlast x hlast' y (List.mem_reverse.mp hy)]

/-- What is in place already, on both sides, stays where it is. -/
theorem inOrder_between {front middle middle' back merged : List α} {l : α}
    (hleft : InOrder cmp (front ++ middle)) (hright : InOrder cmp (middle' ++ back))
    (hfront : ∀ x ∈ front, ∀ y ∈ middle' ++ back, (cmp x y).isLE = true)
    (hl : l ∈ middle.getLast?) (hback : ∀ y ∈ back, (cmp l y).isLE = true)
    (hin : InOrder cmp merged) (hmove : Rearranged cmp (middle ++ middle') merged) :
    InOrder cmp (front ++ merged ++ back) := by
  obtain ⟨hinfront, hinmiddle, hacross⟩ := List.pairwise_append.mp hleft
  obtain ⟨-, hinback, hacross'⟩ := List.pairwise_append.mp hright
  have hmem : ∀ x ∈ merged, x ∈ middle ∨ x ∈ middle' := fun x hx =>
    List.mem_append.mp (hmove.mem_iff.mp hx)
  refine List.pairwise_append.mpr ⟨List.pairwise_append.mpr ⟨hinfront, hin, ?_⟩, hinback, ?_⟩
  · intro x hx y hy
    rcases hmem y hy with hy | hy
    · exact hacross x hx y hy
    · exact hfront x hx y (List.mem_append_left _ hy)
  · intro x hx y hy
    rcases List.mem_append.mp hx with hx | hx
    · exact hfront x hx y (List.mem_append_right _ hy)
    · rcases hmem x hx with hx | hx
      · exact TransCmp.isLE_trans (InOrder.isLE_getLast hinmiddle hl hx) (hback y hy)
      · exact hacross' x hx y hy

/-- Counted are the elements of the left run that stay in front. -/
theorem returns_countBefore (h : Answers less cmp whole) (hleft : left ⊆ whole) (hr : r ∈ whole)
    (hinleft : InOrder cmp left) :
    Returns (countFront .front (fun x => (less r x).map not) left) fun i =>
      (∀ x ∈ left.take i, (cmp x r).isLE = true) ∧ ∀ x ∈ left.drop i, cmp r x = .lt := by
  have htest : ∀ x ∈ left, (less r x).map not = .ok (!(cmp r x == .lt)) := by
    intro x hx
    rw [h r hr x (hleft hx), map_ok]
  refine EndsIn.mono (returns_countFront htest (passFirst_not_lt hinleft r) .front)
    (fun i hi => ⟨?_, ?_⟩) fun _ he => he
  · intro x hx
    exact isLE_of_not_lt (by simpa using hi.of_mem_take hx)
  · intro x hx
    simpa using hi.of_mem_drop hx

/-- Counted from the back are the elements of the right run that stay
behind. -/
theorem returns_countBehind (h : Answers less cmp whole) (hright : right ⊆ whole) (hl : l ∈ whole)
    (hinright : InOrder cmp right) :
    Returns (countFront .back (fun y => (less y l).map not) right.reverse) fun j =>
      (∀ y ∈ right.take (right.length - j), cmp y l = .lt) ∧
        ∀ y ∈ right.drop (right.length - j), (cmp l y).isLE = true := by
  have htest : ∀ y ∈ right.reverse, (less y l).map not = .ok (rightFirst cmp .back y l) := by
    intro y hy
    rw [h y (hright (List.mem_reverse.mp hy)) l hl, map_ok]
    rfl
  refine EndsIn.mono (returns_countFront htest (passFirst_right hinright.reverse l) .back)
    (fun j hj => ⟨?_, ?_⟩) fun _ he => he
  · intro y hy
    have hmem : y ∈ right.reverse.drop j := by
      rw [List.drop_reverse]
      exact List.mem_reverse.mpr hy
    simpa [rightFirst] using hj.of_mem_drop hmem
  · intro y hy
    have hmem : y ∈ right.reverse.take j := by
      rw [List.take_reverse]
      exact List.mem_reverse.mpr hy
    exact isLE_of_not_lt (by simpa [rightFirst] using hj.of_mem_take hmem)

/-- Neighbouring runs are merged. -/
theorem returns_mergeRuns (h : Answers less cmp whole) (patience : Nat)
    (hleft : left ⊆ whole) (hright : right ⊆ whole) (hinleft : InOrder cmp left)
    (hinright : InOrder cmp right) :
    Returns (mergeRuns less patience left right) fun m =>
      InOrder cmp m.1 ∧ Rearranged cmp (left ++ right) m.1 := by
  unfold mergeRuns
  split
  · rw [List.append_nil]
    exact ⟨hinleft, Rearranged.refl left⟩
  · rename_i r rest
    generalize hcons : r :: rest = right at hright hinright
    have hr : r ∈ right := hcons ▸ List.mem_cons_self ..
    have hhead : ∀ y ∈ right, (cmp r y).isLE = true := by
      intro y hy
      rw [← hcons] at hy hinright
      rcases List.mem_cons.mp hy with rfl | hy
      · exact ReflCmp.isLE_rfl
      · exact (inOrder_cons.mp hinright).1 y hy
    refine (returns_countBefore h hleft (hright hr) hinleft).bind fun i hi => ?_
    obtain ⟨htaken, hpast⟩ := hi
    have hfront : ∀ x ∈ left.take i, ∀ y ∈ right, (cmp x y).isLE = true :=
      fun x hx y hy => TransCmp.isLE_trans (htaken x hx) (hhead y hy)
    split
    · -- the whole left run comes first
      rename_i hnone
      have hall : left.take i = left := by
        have hsplit := List.take_append_drop i left
        rwa [List.getLast?_eq_none_iff.mp hnone, List.append_nil] at hsplit
      rw [hall] at hfront
      exact ⟨List.pairwise_append.mpr ⟨hinleft, hinright, hfront⟩, Rearranged.refl _⟩
    · rename_i l hl
      have hlmem : l ∈ left := List.mem_of_mem_drop (List.mem_of_getLast? hl)
      refine (returns_countBehind h hright (hleft hlmem) hinright).bind fun j hj => ?_
      obtain ⟨hbelow, hback⟩ := hj
      generalize right.length - j = kept at hbelow hback
      have hinleft' : InOrder cmp (left.take i ++ left.drop i) := by
        rwa [List.take_append_drop]
      have hinright' : InOrder cmp (right.take kept ++ right.drop kept) := by
        rwa [List.take_append_drop]
      have hfirst : ∀ y ∈ (right.take kept).head?, ∀ x ∈ left.drop i, cmp y x = .lt := by
        intro y hy x hx
        rw [List.head?_take, ← hcons] at hy
        split at hy
        · cases hy
        · exact Option.some.inj hy ▸ hpast x hx
      have hlast : ∀ x ∈ (left.drop i).getLast?, ∀ y ∈ right.take kept, cmp y x = .lt := by
        intro x hx y hy
        exact Option.some.inj (hl.symm.trans hx) ▸ hbelow y hy
      refine (returns_mergeOverlap h patience (fun x hx => hleft (List.mem_of_mem_drop hx))
        (fun y hy => hright (List.mem_of_mem_take hy))
        (hinleft.sublist (List.drop_sublist i left))
        (hinright.sublist (List.take_sublist kept right)) hfirst hlast).bind fun m hm => ?_
      refine ⟨inOrder_between hinleft' hinright' ?_ hl hback hm.1 hm.2, ?_⟩
      · rwa [List.take_append_drop]
      · have hall := ((Rearranged.refl (left.take i)).append hm.2).append
          (Rearranged.refl (right.drop kept))
        rwa [← List.append_assoc, List.take_append_drop, List.append_assoc,
          List.take_append_drop] at hall

end Merging

end DocStore.Sorting
