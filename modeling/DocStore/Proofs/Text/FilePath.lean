import DocStore.Text.FilePath

/-!
# Normal paths

A normal path leads where the path leads that it was made from: it
starts in the same place (`root_normalize`) and has the same parts
(`parts_normalize`), so its file name ends in the same way
(`ending_normalize`). Making it normal once more changes nothing
(`normalize_normalize`).
-/

namespace DocStore

/-! ## Splitting -/

namespace Text

theorem splitAtChar_of_not_mem {sep : Char} {part : List Char} (h : sep ∉ part) :
    splitAtChar sep part = [part] := by
  induction part with
  | nil => rfl
  | cons c cs ih =>
      obtain ⟨hc, hcs⟩ := List.ne_and_not_mem_of_not_mem_cons h
      rw [splitAtChar, if_neg hc.symm, ih hcs]

theorem splitAtChar_append {sep : Char} {part : List Char} (h : sep ∉ part) (cs : List Char) :
    splitAtChar sep (part ++ sep :: cs) = part :: splitAtChar sep cs := by
  induction part with
  | nil => rw [List.nil_append, splitAtChar, if_pos rfl]
  | cons c rest ih =>
      obtain ⟨hc, hrest⟩ := List.ne_and_not_mem_of_not_mem_cons h
      rw [List.cons_append, splitAtChar, if_neg hc.symm, ih hrest]

/-- No part holds the separator. -/
theorem not_mem_of_mem_splitAtChar {sep : Char} {cs part : List Char}
    (h : part ∈ splitAtChar sep cs) : sep ∉ part := by
  induction cs generalizing part with
  | nil =>
      obtain rfl := List.mem_singleton.mp h
      exact List.not_mem_nil
  | cons c cs ih =>
      rw [splitAtChar] at h
      split at h
      · rcases List.mem_cons.mp h with rfl | h
        · exact List.not_mem_nil
        · exact ih h
      rename_i hc
      cases hsplit : splitAtChar sep cs with
      | nil => exact absurd hsplit (splitAtChar_ne_nil sep cs)
      | cons first rest =>
          simp only [hsplit] at h ih
          rcases List.mem_cons.mp h with rfl | h
          · exact List.not_mem_cons_of_ne_of_not_mem (Ne.symm hc) (ih (List.mem_cons_self ..))
          · exact ih (List.mem_cons_of_mem first h)

/-- Parts without the separator are found again in the text that joins
them. -/
theorem splitAtChar_intercalate {sep : Char} {parts : List (List Char)} (hne : parts ≠ [])
    (h : ∀ part ∈ parts, sep ∉ part) : splitAtChar sep ([sep].intercalate parts) = parts := by
  induction parts with
  | nil => exact absurd rfl hne
  | cons part rest ih =>
      have hpart := h part (List.mem_cons_self ..)
      cases rest with
      | nil => simpa [List.intercalate] using splitAtChar_of_not_mem hpart
      | cons next rest =>
          have ih := ih (by simp) fun p hp => h p (List.mem_cons_of_mem part hp)
          have hjoin : [sep].intercalate (part :: next :: rest) =
              part ++ sep :: [sep].intercalate (next :: rest) := by
            simp [List.intercalate]
          rw [hjoin, splitAtChar_append hpart, ih]

end Text

namespace FilePath

/-! ## Parts -/

/-- A part that leads somewhere. -/
def IsPart (part : List Char) : Prop :=
  (part ≠ [] ∧ part ≠ ['.']) ∧ '/' ∉ part

theorem isPart_of_mem {path part : List Char} (h : part ∈ parts path) : IsPart part := by
  obtain ⟨hsplit, hpart⟩ := List.mem_filter.mp h
  exact ⟨by simpa using hpart, Text.not_mem_of_mem_splitAtChar hsplit⟩

/-- Slashes in front of a path lead nowhere. -/
theorem parts_slash (path : List Char) : parts ('/' :: path) = parts path := by
  simp [parts, Text.splitAtChar]

theorem parts_root_append (path rest : List Char) : parts (root path ++ rest) = parts rest := by
  unfold root
  split <;> simp [parts_slash]

theorem parts_intercalate {ps : List (List Char)} (h : ∀ part ∈ ps, IsPart part) :
    parts (['/'].intercalate ps) = ps := by
  cases ps with
  | nil => rfl
  | cons part rest =>
      rw [parts, Text.splitAtChar_intercalate (by simp) fun p hp => (h p hp).2]
      refine List.filter_eq_self.mpr fun p hp => ?_
      simpa using (h p hp).1

/-! ## The start -/

theorem root_cases (path : List Char) : root path = [] ∨ root path = ['/'] ∨
    root path = ['/', '/'] := by
  unfold root
  split <;> simp

/-- What starts with a part starts with no slash. -/
theorem head?_intercalate {ps : List (List Char)} (h : ∀ part ∈ ps, IsPart part) :
    ∀ c ∈ (['/'].intercalate ps).head?, c ≠ '/' := by
  cases ps with
  | nil => simp [List.intercalate]
  | cons part rest =>
      obtain ⟨⟨hne, -⟩, hslash⟩ := h part (List.mem_cons_self ..)
      obtain ⟨c, cs, rfl⟩ := List.exists_cons_of_ne_nil hne
      have hhead : (['/'].intercalate ((c :: cs) :: rest)).head? = some c := by
        cases rest <;> simp [List.intercalate]
      rw [hhead]
      rintro d ⟨⟩ rfl
      exact hslash (List.mem_cons_self ..)

theorem root_append (path : List Char) {rest : List Char} (h : ∀ c ∈ rest.head?, c ≠ '/') :
    root (root path ++ rest) = root path := by
  have htake : rest.takeWhile (· = '/') = [] := by
    cases rest with
    | nil => rfl
    | cons c cs => simp [h c rfl]
  rcases root_cases path with hroot | hroot | hroot <;> rw [hroot] <;> simp [root, htake]

/-! ## Normal paths -/

/-- The characters of a normal path; an empty one is written as a
point. -/
theorem toList_normalize (path : String) :
    (normalize path).toList =
      if root path.toList ++ ['/'].intercalate (parts path.toList) = [] then ['.']
      else root path.toList ++ ['/'].intercalate (parts path.toList) := by
  rw [normalize]
  cases root path.toList ++ ['/'].intercalate (parts path.toList) with
  | nil => rfl
  | cons c cs => exact String.toList_ofList

theorem parts_normalize (path : String) :
    parts (normalize path).toList = parts path.toList := by
  have hparts : parts (root path.toList ++ ['/'].intercalate (parts path.toList)) =
      parts path.toList := by
    rw [parts_root_append, parts_intercalate fun _ => isPart_of_mem]
  rw [toList_normalize]
  split
  · rename_i hnil
    rw [hnil] at hparts
    rw [← hparts]
    rfl
  · exact hparts

theorem root_normalize (path : String) : root (normalize path).toList = root path.toList := by
  rw [toList_normalize]
  split
  · rename_i hnil
    rw [(List.append_eq_nil_iff.mp hnil).1]
    rfl
  · exact root_append _ (head?_intercalate fun _ => isPart_of_mem)

/-- Normal paths stay as they are. -/
theorem normalize_normalize (path : String) : normalize (normalize path) = normalize path := by
  rw [← String.toList_inj, toList_normalize (normalize path), parts_normalize, root_normalize,
    ← toList_normalize]

theorem isEmpty_normalize (path : String) : (normalize path).isEmpty = false := by
  have hne : (normalize path).toList ≠ [] := by
    rw [toList_normalize]
    split
    · simp
    · assumption
  simpa using hne

theorem ending_normalize (path : String) : ending (normalize path) = ending path := by
  rw [ending, ending, parts_normalize]

end FilePath

end DocStore
