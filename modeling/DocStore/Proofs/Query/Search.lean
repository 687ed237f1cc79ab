import DocStore.Proofs.Run
import DocStore.Proofs.Text.Case
import DocStore.Query.Function
import Mathlib.Control.Monad.Basic

/-!
# What text search finds

`CONTAINS` and `STARTSWITH` compare texts in lower case, each of which
is taken of a whole text. So what a search finds is decided by the lower
case of a part where it stands: a text that occurs literally is found if
its capital sigmas take the same lower case there as they do alone
(`Text.SameSigmas`), and a literal start is found if and only if they do
(`literal_found`). Without capital sigmas, whatever occurs is found; a
sigma that ends a word alone but not in the text is missed
(`literal_sigma_missed`).
-/

namespace DocStore

theorem occursIn_iff_isInfix (part cs : List Char) : occursIn part cs = true ↔ part <:+: cs := by
  induction cs with
  | nil => rw [occursIn, List.isEmpty_iff, List.infix_nil]
  | cons c cs ih =>
      rw [occursIn, Bool.or_eq_true, ih, List.isPrefixOf_iff_prefix, List.infix_cons_iff]

namespace Json

variable {v w : Json} {whole part : String} (hv : v ≠ .null) (hw : w ≠ .null)

theorem present?_of_ne_null (h : v ≠ .null) : Value.present? (some v) = some v := by
  cases v with
  | null => exact absurd rfl h
  | bool | int | float | str | arr | obj => rfl

theorem searchText_of_shownText (h : v.shownText = .ok whole) :
    v.searchText = .ok (Text.lower whole.toList) := by
  rw [searchText, h, map_ok]

include hv hw

theorem containsText_iff (hwhole : v.shownText = .ok whole) (hpart : w.shownText = .ok part) :
    containsText (some v) (some w) = .ok true ↔
      Text.lower part.toList <:+: Text.lower whole.toList := by
  rw [containsText, present?_of_ne_null hv, present?_of_ne_null hw]
  simp only [searchText_of_shownText hwhole, searchText_of_shownText hpart, ok_bind]
  show Except.ok _ = Except.ok true ↔ _
  rw [Except.ok.injEq, occursIn_iff_isInfix]

theorem startsWithText_iff (hwhole : v.shownText = .ok whole) (hpart : w.shownText = .ok part) :
    startsWithText (some v) (some w) = .ok true ↔
      Text.lower part.toList <+: Text.lower whole.toList := by
  rw [startsWithText, present?_of_ne_null hv, present?_of_ne_null hw]
  simp only [searchText_of_shownText hwhole, searchText_of_shownText hpart, ok_bind]
  show Except.ok _ = Except.ok true ↔ _
  rw [Except.ok.injEq, List.isPrefixOf_iff_prefix]

end Json

/-- What a value starts with, it contains. -/
theorem containsText_of_startsWithText {v w : Value} (h : startsWithText v w = .ok true) :
    containsText v w = .ok true := by
  unfold startsWithText at h
  unfold containsText
  split at h
  · obtain ⟨whole, hwhole, h⟩ := bind_eq_ok_iff.mp h
    obtain ⟨part, hpart, h⟩ := bind_eq_ok_iff.mp h
    have hstarts := List.isPrefixOf_iff_prefix.mp (Except.ok.inj h)
    rw [hpart, ok_bind, hwhole, ok_bind]
    exact congrArg Except.ok ((occursIn_iff_isInfix ..).mpr hstarts.isInfix)
  · cases h

/-- **Text search finds what is literally there**, as far as sigmas let
it. A text that occurs in the text of a value is found if it has no
capital sigma, and also if those it has end words in their place if and
only if they do alone; a start of the text is found in no other case.
And a value contains whatever it starts with. -/
theorem literal_found {v w : Json} {whole part : String} (hv : v ≠ .null) (hw : w ≠ .null)
    (hwhole : v.shownText = .ok whole) (hpart : w.shownText = .ok part) :
    (∀ before after, whole.toList = before ++ (part.toList ++ after) →
      'Σ' ∉ part.toList ∨ Text.SameSigmas before part.toList after →
        containsText (some v) (some w) = .ok true) ∧
    (∀ after, whole.toList = part.toList ++ after →
      (startsWithText (some v) (some w) = .ok true ↔ Text.SameSigmas [] part.toList after)) ∧
    (startsWithText (some v) (some w) = .ok true → containsText (some v) (some w) = .ok true) := by
  refine ⟨fun before after htext hsigmas => ?_, fun after htext => ?_,
    containsText_of_startsWithText⟩
  · have hsame : Text.SameSigmas before part.toList after :=
      hsigmas.elim (fun h => Text.sameSigmas_of_not_mem h before after) id
    rw [Json.containsText_iff hv hw hwhole hpart, htext, Text.lower_append,
      (Text.lowerWithin_eq_lower_iff ..).mpr hsame]
    exact List.infix_append' ..
  · rw [Json.startsWithText_iff hv hw hwhole hpart, htext]
    exact Text.lower_prefix_iff ..

/-- A word with two sigmas, in quotes in the text of an array. -/
theorem literal_found_in_array :
    let v : Json := .arr [.str "ΣΑΣΑ", .int 1]
    let w : Json := .str "ΣΑΣΑ\",1"
    let whole := "[\"ΣΑΣΑ\",1]"
    let part := "ΣΑΣΑ\",1"
    v ≠ .null ∧ w ≠ .null ∧ v.shownText = .ok whole ∧ w.shownText = .ok part ∧
      whole.toList = "[\"".toList ++ (part.toList ++ "]".toList) ∧
      Text.SameSigmas "[\"".toList part.toList "]".toList ∧
      containsText (some v) (some w) = .ok true := by
  intro v w whole part
  have hv : v ≠ .null := Json.noConfusion
  have hw : w ≠ .null := Json.noConfusion
  have hwhole : v.shownText = .ok whole := by decide +kernel
  have hpart : w.shownText = .ok part := by decide +kernel
  have hsigmas : Text.SameSigmas "[\"".toList part.toList "]".toList :=
    Text.sameSigmas_of_apart (by decide +kernel) (by decide +kernel) _
  have htext : whole.toList = "[\"".toList ++ (part.toList ++ "]".toList) := by decide +kernel
  exact ⟨hv, hw, hwhole, hpart, htext, hsigmas,
    (literal_found hv hw hwhole hpart).1 _ _ htext (.inr hsigmas)⟩

/-- The sigma at the end of a word is another letter in lower case than
the same sigma in the word. -/
theorem literal_sigma_missed :
    let v : Json := .str "ΑΣΑ"
    let w : Json := .str "ΑΣ"
    v.shownText = .ok "ΑΣΑ" ∧ w.shownText = .ok "ΑΣ" ∧
      "ΑΣΑ".toList = "ΑΣ".toList ++ "Α".toList ∧
      startsWithText (some v) (some w) = .ok false ∧
      containsText (some v) (some w) = .ok false := by
  decide +kernel

end DocStore
