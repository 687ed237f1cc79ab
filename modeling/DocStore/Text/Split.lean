/-!
# Splitting texts

A text falls into parts at every occurrence of a separator; there is one
part more than there are separators, and joining the parts gives the
text back.
-/

namespace DocStore.Text

/-- The parts of a text between separators. -/
def splitAtChar (sep : Char) : List Char → List (List Char)
  | [] => [[]]
  | c :: cs =>
      if c = sep then [] :: splitAtChar sep cs
      else
        match splitAtChar sep cs with
        | [] => [[c]]
        | part :: parts => (c :: part) :: parts

theorem splitAtChar_ne_nil (sep : Char) (cs : List Char) : splitAtChar sep cs ≠ [] := by
  cases cs with
  | nil => simp [splitAtChar]
  | cons c cs =>
      simp only [splitAtChar]
      split
      · simp
      · split <;> simp

/-- The parts joined by the separator give the text back. -/
theorem intercalate_splitAtChar (sep : Char) (cs : List Char) :
    [sep].intercalate (splitAtChar sep cs) = cs := by
  induction cs with
  | nil => rfl
  | cons c cs ih =>
      simp only [splitAtChar]
      split
      · next h =>
        obtain ⟨p, ps, hp⟩ := List.exists_cons_of_ne_nil (splitAtChar_ne_nil sep cs)
        rw [hp] at ih ⊢
        simp [← ih, h, List.intercalate]
      · obtain ⟨p, ps, hp⟩ := List.exists_cons_of_ne_nil (splitAtChar_ne_nil sep cs)
        rw [hp] at ih ⊢
        cases ps <;> simp_all [List.intercalate]

end DocStore.Text
