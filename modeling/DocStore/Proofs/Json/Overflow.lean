import DocStore.Json.Path
import DocStore.Proofs.Json.Order
import DocStore.Proofs.Run
import DocStore.Proofs.Table

/-!
# When comparisons fail

Comparing values has an answer, unless an integer beyond the doubles
inside one of them meets a double at the same place inside the other
(`ClashesInPlace`): arrays and objects are compared part by part. The
comparisons that look at numbers only fail on these themselves
(`Overflows`). For values of which no more is known than what is inside
them (`Inside`), any integer beyond the doubles in the one may clash with
any double in the other (`Clashes`).
-/

namespace DocStore

/-! ## Inside a value -/

/-- The first value is the second one, or one of its parts. -/
inductive Json.Inside (v : Json) : Json → Prop where
  | self : Inside v v
  | element {w : Json} {ws : List Json} (h : Inside v w) (hw : w ∈ ws) : Inside v (.arr ws)
  | field {w : Json} {key : String} {fields : Fields} (h : Inside v w)
      (hw : (key, w) ∈ fields) : Inside v (.obj fields)

theorem Json.Inside.trans {u v w : Json} (h : u.Inside v) (h' : v.Inside w) : u.Inside w := by
  induction h' with
  | self => exact h
  | element _ hw ih => exact ih.element hw
  | field _ hw ih => exact ih.field hw

/-- What a path leads to is inside. -/
theorem Json.inside_of_resolve {v w : Json} {path : List String} (h : v.resolve path = some w) :
    w.Inside v := by
  induction path generalizing v with
  | nil =>
      obtain rfl := Option.some.inj h
      exact .self
  | cons segment rest ih =>
      unfold Json.resolve at h
      split at h
      · split at h
        · rename_i child hchild
          exact (ih h).field (Table.mem_of_get? hchild)
        · cases h
      · cases h

/-- The first two values stand at the same place inside the other two:
there is the same way into both, by the positions of elements in arrays
and by the keys of objects. -/
inductive Json.Counterparts (a b : Json) : Json → Json → Prop where
  | self : Counterparts a b a b
  | element {i : Nat} {v w : Json} {vs ws : List Json} (hv : vs[i]? = some v) (hw : ws[i]? = some w)
      (h : Counterparts a b v w) : Counterparts a b (.arr vs) (.arr ws)
  | field {key : String} {v w : Json} {fs gs : Fields} (hv : (key, v) ∈ fs) (hw : (key, w) ∈ gs)
      (h : Counterparts a b v w) : Counterparts a b (.obj fs) (.obj gs)

theorem Json.Counterparts.inside {a b v w : Json} (h : a.Counterparts b v w) :
    a.Inside v ∧ b.Inside w := by
  induction h with
  | self => exact ⟨.self, .self⟩
  | element hv hw _ ih =>
      exact ⟨ih.1.element (List.mem_of_getElem? hv), ih.2.element (List.mem_of_getElem? hw)⟩
  | field hv hw _ ih => exact ⟨ih.1.field hv, ih.2.field hw⟩

theorem Json.Counterparts.symm {a b v w : Json} (h : a.Counterparts b v w) :
    b.Counterparts a w v := by
  induction h with
  | self => exact .self
  | element hv hw _ ih => exact ih.element hw hv
  | field hv hw _ ih => exact ih.field hw hv

/-- An integer beyond the doubles and a double stand at the same place. -/
def ClashesInPlace (v w : Json) : Prop :=
  ∃ a b : Json, a.Counterparts b v w ∧ Overflows (some a) (some b)

theorem ClashesInPlace.element {i : Nat} {v w : Json} {vs ws : List Json} (h : ClashesInPlace v w)
    (hv : vs[i]? = some v) (hw : ws[i]? = some w) : ClashesInPlace (.arr vs) (.arr ws) := by
  obtain ⟨a, b, hab, hover⟩ := h
  exact ⟨a, b, hab.element hv hw, hover⟩

theorem ClashesInPlace.field {key : String} {v w : Json} {fs gs : Fields} (h : ClashesInPlace v w)
    (hv : (key, v) ∈ fs) (hw : (key, w) ∈ gs) : ClashesInPlace (.obj fs) (.obj gs) := by
  obtain ⟨a, b, hab, hover⟩ := h
  exact ⟨a, b, hab.field hv hw, hover⟩

theorem ClashesInPlace.symm {v w : Json} (h : ClashesInPlace v w) : ClashesInPlace w v := by
  obtain ⟨a, b, hab, hover⟩ := h
  exact ⟨b, a, hab.symm, overflows_comm hover⟩

/-- An integer beyond the doubles is inside one value, a double inside
the other. -/
def Clashes (v w : Json) : Prop :=
  ∃ a b : Json, a.Inside v ∧ b.Inside w ∧ Overflows (some a) (some b)

theorem clashes_of_overflows {v w : Json} (h : Overflows (some v) (some w)) : Clashes v w :=
  ⟨v, w, .self, .self, h⟩

theorem ClashesInPlace.clashes {v w : Json} (h : ClashesInPlace v w) : Clashes v w := by
  obtain ⟨a, b, hab, hover⟩ := h
  exact ⟨a, b, hab.inside.1, hab.inside.2, hover⟩

theorem Clashes.inside {v v' w w' : Json} (h : Clashes v w) (hv : v.Inside v')
    (hw : w.Inside w') : Clashes v' w' := by
  obtain ⟨a, b, ha, hb, hover⟩ := h
  exact ⟨a, b, ha.trans hv, hb.trans hw, hover⟩

/-! ## Values that clash with none -/

namespace Json

/-- Every integer inside the value is in the range of doubles. -/
def InRange (v : Json) : Prop :=
  ∀ n, (int n).Inside v → n.natAbs < Double.overflowBound

mutual

/-- The test of `InRange`. -/
def fits : Json → Bool
  | int n => n.natAbs < Double.overflowBound
  | arr vs => fitsAll vs
  | obj fields => fitsFields fields
  | _ => true

def fitsAll : List Json → Bool
  | [] => true
  | v :: vs => fits v && fitsAll vs

def fitsFields : List (String × Json) → Bool
  | [] => true
  | (_, v) :: fields => fits v && fitsFields fields

end

theorem fits_of_mem {v : Json} {vs : List Json} (h : fitsAll vs = true) (hv : v ∈ vs) :
    v.fits = true := by
  induction vs with
  | nil => cases hv
  | cons w vs ih =>
      rw [fitsAll, Bool.and_eq_true] at h
      rcases List.mem_cons.mp hv with rfl | hv
      · exact h.1
      · exact ih h.2 hv

theorem fits_of_mem_fields {key : String} {v : Json} {fields : Fields}
    (h : fitsFields fields = true) (hv : (key, v) ∈ fields) : v.fits = true := by
  induction fields with
  | nil => cases hv
  | cons f fields ih =>
      obtain ⟨k, w⟩ := f
      rw [fitsFields, Bool.and_eq_true] at h
      rcases List.mem_cons.mp hv with heq | hv
      · cases heq
        exact h.1
      · exact ih h.2 hv

theorem Inside.fits {v w : Json} (h : v.Inside w) (hw : w.fits = true) : v.fits = true := by
  induction h with
  | self => exact hw
  | element _ hmem ih => exact ih (fits_of_mem (by rwa [Json.fits] at hw) hmem)
  | field _ hmem ih => exact ih (fits_of_mem_fields (by rwa [Json.fits] at hw) hmem)

theorem inRange_of_fits {v : Json} (h : v.fits = true) : v.InRange := by
  intro n hn
  have hfits := hn.fits h
  rwa [Json.fits, decide_eq_true_iff] at hfits

end Json

theorem not_clashes_of_inRange {v w : Json} (hv : v.InRange) (hw : w.InRange) :
    ¬ Clashes v w := by
  rintro ⟨a, b, ha, hb, hover⟩
  match a, b, hover with
  | .int n, .float _, hover => exact Nat.not_le_of_lt (hv n ha) hover
  | .float _, .int n, hover => exact Nat.not_le_of_lt (hw n hb) hover

/-! ## Numbers -/

theorem endsIn_widen (n : Int) :
    EndsIn (widen n) (fun _ => True) fun _ => Double.overflowBound ≤ n.natAbs := by
  rw [widen]
  split
  · exact trivial
  · rename_i h
    exact (Double.ofInt_eq_none_iff n).mp h

/-- Comparing numbers fails for one reason. -/
theorem endsIn_compareNumbers (v w : Json) :
    EndsIn (v.compareNumbers w) (fun _ => True) fun _ => Overflows (some v) (some w) := by
  unfold Json.compareNumbers
  split
  · exact trivial
  · refine (endsIn_widen _).bind fun _ _ => ?_
    exact trivial
  · refine (endsIn_widen _).bind fun _ _ => ?_
    exact trivial
  · exact trivial
  · exact trivial

theorem endsIn_numbersEqual (v w : Json) :
    EndsIn (v.numbersEqual w) (fun _ => True) fun _ => ClashesInPlace v w :=
  ((endsIn_compareNumbers v w).mono (fun _ h => h) fun _ h => ⟨v, w, .self, h⟩).bind
    fun _ _ => trivial

/-! ## Equality -/

mutual

/-- By recursion on the first value, as values are compared. -/
theorem endsIn_deepEqual : (v w : Json) →
    EndsIn (v.deepEqual w) (fun _ => True) fun _ => ClashesInPlace v w
  | .null, w => by cases w <;> exact trivial
  | .bool _, w => by cases w <;> exact trivial
  | .int n, w => by
      rw [Json.deepEqual]
      exact endsIn_numbersEqual _ w
  | .float x, w => by
      rw [Json.deepEqual]
      exact endsIn_numbersEqual _ w
  | .str _, w => by cases w <;> exact trivial
  | .arr vs, w => by
      cases w with
      | arr ws =>
          rw [Json.deepEqual]
          split
          · refine (endsIn_deepEqualElements vs ws).mono (fun _ h => h) ?_
            rintro _ ⟨i, v, w, hv, hw, h⟩
            exact h.element hv hw
          · exact trivial
      | _ => exact trivial
  | .obj fs, w => by
      cases w with
      | obj gs =>
          rw [Json.deepEqual]
          split
          · refine (endsIn_deepEqualFields fs gs).mono (fun _ h => h) ?_
            rintro _ ⟨key, v, w, hv, hw, h⟩
            exact h.field hv hw
          · exact trivial
      | _ => exact trivial

theorem endsIn_deepEqualElements : (vs ws : List Json) →
    EndsIn (Json.deepEqualElements vs ws) (fun _ => True)
      fun _ => ∃ (i : Nat) (v w : Json), vs[i]? = some v ∧ ws[i]? = some w ∧ ClashesInPlace v w
  | [], _ => by
      rw [Json.deepEqualElements]
      · exact trivial
      · simp
  | v :: vs, ws => by
      cases ws with
      | nil =>
          rw [Json.deepEqualElements]
          · exact trivial
          · simp
      | cons w ws =>
          rw [Json.deepEqualElements]
          refine ((endsIn_deepEqual v w).mono (fun _ h => h) fun _ h => ?_).bind fun same _ => ?_
          · exact ⟨0, v, w, rfl, rfl, h⟩
          · cases same with
            | true =>
                refine (endsIn_deepEqualElements vs ws).mono (fun _ h => h) ?_
                rintro _ ⟨i, v', w', hv, hw, h⟩
                exact ⟨i + 1, v', w', hv, hw, h⟩
            | false => exact trivial

theorem endsIn_deepEqualFields : (fs gs : List (String × Json)) →
    EndsIn (Json.deepEqualFields fs gs) (fun _ => True)
      fun _ => ∃ (key : String) (v w : Json), (key, v) ∈ fs ∧ (key, w) ∈ gs ∧ ClashesInPlace v w
  | [], _ => by
      rw [Json.deepEqualFields]
      exact trivial
  | (key, v) :: fs, gs => by
      rw [Json.deepEqualFields]
      split
      · exact trivial
      · rename_i w hw
        refine ((endsIn_deepEqual v w).mono (fun _ h => h) fun _ h => ?_).bind fun same _ => ?_
        · exact ⟨key, v, w, by simp, Table.mem_of_get? hw, h⟩
        · cases same with
          | true =>
              refine (endsIn_deepEqualFields fs gs).mono (fun _ h => h) ?_
              rintro _ ⟨key', v', w', hv, hw, h⟩
              exact ⟨key', v', w', by simp [hv], hw, h⟩
          | false => exact trivial

end

theorem endsIn_equal (v w : Json) :
    EndsIn (v.equal w) (fun _ => True) fun _ => ClashesInPlace v w := by
  unfold Json.equal
  split
  · exact trivial
  · exact endsIn_deepEqual v w

/-! ## Order -/

theorem endsIn_compareOrdinal (v w : Json) :
    EndsIn (v.compareOrdinal w) (fun _ => True) fun _ => Overflows (some v) (some w) := by
  unfold Json.compareOrdinal
  split
  · exact trivial
  · split
    · exact (endsIn_compareNumbers v w).bind fun _ _ => trivial
    · exact trivial

/-- Sort keys are compared unless they overflow. -/
theorem endsIn_compareForSort (v w : Value) :
    EndsIn (compareForSort v w) (fun _ => True) fun _ => Overflows v w := by
  have hordinal : EndsIn (compareOrdinal v w) (fun _ => True) fun _ => Overflows v w := by
    match v, w with
    | some v, some w => exact endsIn_compareOrdinal v w
    | none, _ => exact trivial
    | some _, none => exact trivial
  unfold compareForSort
  split
  · split
    · exact trivial
    · exact hordinal.bind fun _ _ => trivial
  · exact trivial

end DocStore
