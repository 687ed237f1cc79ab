import DocStore.Json.Writer
import DocStore.Proofs.Json.Equality

/-!
# Values that can be shown

A value can be shown unless there is an integer of too many digits inside
(`exists_inside_of_not_isShowable`), and then its parts can be shown too
(`Inside.isShowable`).
-/

namespace DocStore.Json

theorem areShowable_iff {vs : List Json} :
    areShowable vs = true ↔ ∀ v ∈ vs, v.isShowable = true := by
  induction vs with
  | nil => simp [areShowable]
  | cons v vs ih => rw [areShowable, Bool.and_eq_true, ih, List.forall_mem_cons]

theorem fieldsShowable_iff {fs : Fields} :
    fieldsShowable fs = true ↔ ∀ f ∈ fs, f.2.isShowable = true := by
  induction fs with
  | nil => simp [fieldsShowable]
  | cons f fs ih => rw [fieldsShowable, Bool.and_eq_true, ih, List.forall_mem_cons]

theorem Inside.isShowable {v w : Json} (h : v.Inside w) (hw : w.isShowable = true) :
    v.isShowable = true := by
  induction h with
  | self => exact hw
  | element _ hmem ih =>
      rw [Json.isShowable, areShowable_iff] at hw
      exact ih (hw _ hmem)
  | field _ hmem ih =>
      rw [Json.isShowable, fieldsShowable_iff] at hw
      exact ih (hw _ hmem)

theorem exists_inside_of_not_isShowable {v : Json} (h : ¬ v.isShowable = true) :
    ∃ n, (int n).Inside v ∧ ¬ (int n).isShowable = true := by
  induction v using induct with
  | null | bool _ | float _ | str _ => exact absurd rfl h
  | int n => exact ⟨n, .self, h⟩
  | arr vs ih =>
      rw [isShowable, areShowable_iff] at h
      obtain ⟨v, h⟩ := not_forall.mp h
      obtain ⟨hv, hshown⟩ := Classical.not_imp.mp h
      obtain ⟨n, hn, hlong⟩ := ih v hv hshown
      exact ⟨n, hn.element hv, hlong⟩
  | obj fs ih =>
      rw [isShowable, fieldsShowable_iff] at h
      obtain ⟨f, h⟩ := not_forall.mp h
      obtain ⟨hf, hshown⟩ := Classical.not_imp.mp h
      obtain ⟨n, hn, hlong⟩ := ih f hf hshown
      exact ⟨n, hn.field hf, hlong⟩

end DocStore.Json
