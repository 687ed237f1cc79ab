import DocStore.Text.Order

/-!
# The order of texts is a total order

Comparing by code points is the lexicographic comparison of the library,
so the laws of comparison functions hold for it.
-/

namespace DocStore.Text

theorem compareChars_eq_compareLex :
    ∀ as bs : List Char, compareChars as bs = List.compareLex (compareOn Char.toNat) as bs
  | [], [] => rfl
  | [], _ :: _ => rfl
  | _ :: _, [] => rfl
  | a :: as, b :: bs => by
      rw [compareChars, List.compareLex_cons_cons, compareChars_eq_compareLex as bs]
      rfl

instance : Std.TransCmp compareChars := by
  have h : compareChars = List.compareLex (compareOn Char.toNat) := by
    funext as bs
    exact compareChars_eq_compareLex as bs
  rw [h]
  infer_instance

theorem compareChars_eq_eq_iff {as bs : List Char} : compareChars as bs = .eq ↔ as = bs := by
  induction as generalizing bs with
  | nil =>
      cases bs with
      | nil => exact iff_of_true rfl rfl
      | cons b bs => exact iff_of_false (by rw [compareChars]; decide) (by simp)
  | cons a as ih =>
      cases bs with
      | nil => exact iff_of_false (by rw [compareChars]; decide) (by simp)
      | cons b bs =>
          rw [compareChars, Ordering.then_eq_eq, Nat.compare_eq_eq, Char.toNat_inj, ih,
            List.cons.injEq]

/-! ## Sorting -/

section Sorting

variable {α : Type} (key : α → String)

theorem perm_insertByKey (x : α) (xs : List α) : (insertByKey key x xs).Perm (x :: xs) := by
  induction xs with
  | nil => rfl
  | cons y ys ih =>
      rw [insertByKey]
      split
      · rfl
      · exact (ih.cons y).trans (.swap x y ys)

/-- By insertion, which starts from what is sorted so far. -/
theorem perm_sortByKey (xs : List α) : (sortByKey key xs).Perm xs := by
  suffices h : ∀ sorted, (xs.foldl (fun sorted x => insertByKey key x sorted) sorted).Perm
      (sorted ++ xs) from h []
  induction xs with
  | nil =>
      intro sorted
      rw [List.append_nil]
      rfl
  | cons x xs ih =>
      intro sorted
      have hinsert : (insertByKey key x sorted ++ xs).Perm (x :: sorted ++ xs) :=
        (perm_insertByKey key x sorted).append_right xs
      exact ((ih _).trans hinsert).trans List.perm_middle.symm

end Sorting

end DocStore.Text
