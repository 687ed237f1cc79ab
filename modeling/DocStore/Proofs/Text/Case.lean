import DocStore.Text.Case

/-!
# Lower case part by part

The lower case of a text is put together from its parts, each of them in
lower case where it stands (`lowerFrom_append`). Where a part stands
matters for capital sigma alone, which becomes a final sigma at the end
of a word: a part has the same lower case in two places if and only if
its sigmas end words in the one as in the other (`lowerWithin_eq_iff`).

Whether a word ends is decided by the next character that is not
skipped. So a part that has no letters next to it keeps its lower case
(`sameSigmas_of_apart`), as does one without sigmas.
-/

namespace DocStore.Text

/-- A capital sigma between the texts, of which the first is read
backwards, ends a word. -/
def endsWord (before after : List Char) : Bool :=
  meetsCased before && !meetsCased after

/-- Lower case of a part of a text; what is before it is read
backwards. -/
def lowerWithin (before part after : List Char) : List Char :=
  match part with
  | [] => []
  | c :: rest =>
    (if c = 'Σ' then [if endsWord before (rest ++ after) then 'ς' else 'σ'] else lowerChar c) ++
      lowerWithin (c :: before) rest after

theorem lowerWithin_nil (before part : List Char) :
    lowerWithin before part [] = lowerFrom before part := by
  induction part generalizing before with
  | nil => rfl
  | cons c part ih =>
      rw [lowerWithin, lowerFrom, ih, List.append_nil]
      rfl

theorem lowerFrom_append (before part after : List Char) :
    lowerFrom before (part ++ after) =
      lowerWithin before part after ++ lowerFrom (part.reverse ++ before) after := by
  induction part generalizing before with
  | nil => rfl
  | cons c part ih =>
      rw [List.cons_append, lowerFrom, lowerWithin, ih, List.append_assoc, List.reverse_cons,
        List.append_assoc]
      rfl

/-- The lower case of a text with a part between two others. -/
theorem lower_append (before part after : List Char) :
    lower (before ++ (part ++ after)) =
      lowerWithin [] before (part ++ after) ++
        (lowerWithin before.reverse part after ++
          lowerFrom (part.reverse ++ before.reverse) after) := by
  rw [lower, lowerFrom_append, lowerFrom_append, List.append_nil]

/-! ## Sigmas -/

/-- The capital sigmas of the part end words between the texts if and
only if they do without them. -/
def SameSigmas (before part after : List Char) : Prop :=
  ∀ front back, part = front ++ 'Σ' :: back →
    endsWord (front.reverse ++ before.reverse) (back ++ after) = endsWord front.reverse back

/-- Where a character can stand in a text that starts with one. -/
theorem forall_split_cons {p : List Char → List Char → Prop} {c d : Char} {cs : List Char} :
    (∀ front back, c :: cs = front ++ d :: back → p front back) ↔
      (c = d → p [] cs) ∧ ∀ front back, cs = front ++ d :: back → p (c :: front) back := by
  constructor
  · intro h
    refine ⟨?_, fun front back hcs => h (c :: front) back (congrArg (c :: ·) hcs)⟩
    rintro rfl
    exact h [] cs rfl
  · rintro ⟨hhead, htail⟩ front back hcs
    cases front with
    | nil =>
        obtain ⟨rfl, rfl⟩ := List.cons.inj hcs
        exact hhead rfl
    | cons _ front =>
        obtain ⟨rfl, hrest⟩ := List.cons.inj hcs
        exact htail front back hrest

/-- A part has the same lower case in two places if and only if its
sigmas end words in the one as in the other. By induction on the part:
all other characters have the same lower case everywhere. -/
theorem lowerWithin_eq_iff (before before' part after after' : List Char) :
    lowerWithin before part after = lowerWithin before' part after' ↔
      ∀ front back, part = front ++ 'Σ' :: back →
        endsWord (front.reverse ++ before) (back ++ after) =
          endsWord (front.reverse ++ before') (back ++ after') := by
  induction part generalizing before before' with
  | nil => simp [lowerWithin]
  | cons c part ih =>
      rw [forall_split_cons, lowerWithin, lowerWithin]
      simp only [List.reverse_cons, List.append_assoc, List.singleton_append, ← ih,
        List.reverse_nil, List.nil_append]
      by_cases hc : c = 'Σ'
      · have hsigma : ∀ a b : Bool,
            (if a then 'ς' else 'σ') = (if b then 'ς' else 'σ') ↔ a = b := by decide
        simp only [hc, if_true, List.singleton_append, List.cons.injEq, hsigma, true_imp_iff]
      · simp only [hc, if_false, List.append_cancel_left_eq, false_imp_iff, true_and]

/-- A part keeps its lower case between two texts if and only if its
sigmas keep their roles. -/
theorem lowerWithin_eq_lower_iff (before part after : List Char) :
    lowerWithin before.reverse part after = lower part ↔ SameSigmas before part after := by
  rw [lower, ← lowerWithin_nil, lowerWithin_eq_iff]
  simp only [List.append_nil]
  rfl

theorem length_lowerWithin (before before' part after after' : List Char) :
    (lowerWithin before part after).length = (lowerWithin before' part after').length := by
  induction part generalizing before before' with
  | nil => rfl
  | cons c part ih =>
      rw [lowerWithin, lowerWithin, List.length_append, List.length_append,
        ih (c :: before) (c :: before')]
      split <;> rfl

/-- The lower case of a text starts with that of its start if and only
if the sigmas of the start keep their roles. -/
theorem lower_prefix_iff (part after : List Char) :
    lower part <+: lower (part ++ after) ↔ SameSigmas [] part after := by
  have hlength : (lower part).length = (lowerWithin [] part after).length := by
    rw [lower, ← lowerWithin_nil]
    exact length_lowerWithin ..
  rw [← lowerWithin_eq_lower_iff, List.reverse_nil, lower.eq_def (part ++ after), lowerFrom_append]
  constructor
  · intro h
    have hstarts := List.prefix_of_prefix_length_le h (List.prefix_append ..) (Nat.le_of_eq hlength)
    exact (hstarts.eq_of_length hlength).symm
  · intro h
    rw [h]
    exact List.prefix_append ..

/-! ## Roles that are kept -/

theorem sameSigmas_of_not_mem {part : List Char} (h : 'Σ' ∉ part) (before after : List Char) :
    SameSigmas before part after := by
  rintro front back rfl
  exact absurd (List.mem_append_right _ (List.mem_cons_self ..)) h

theorem meetsCased_cons (c : Char) (cs : List Char) :
    meetsCased (c :: cs) = if isCaseIgnorable c then meetsCased cs else isCased c := by
  by_cases hc : isCaseIgnorable c = true
  · rw [if_pos hc, meetsCased, List.dropWhile_cons_of_pos hc, meetsCased]
  · simp [meetsCased, hc]

/-- What stands behind a character that is not skipped does not count,
and behind those that are, no more than it does alone. -/
theorem meetsCased_append_of_false {ds : List Char} (h : meetsCased ds = false)
    (cs : List Char) : meetsCased (cs ++ ds) = meetsCased cs := by
  induction cs with
  | nil => exact h
  | cons c cs ih => rw [List.cons_append, meetsCased_cons, meetsCased_cons, ih]

/-- In a part that is set off from all letters around it, sigmas keep
their roles. -/
theorem sameSigmas_of_apart {before after : List Char}
    (hbefore : meetsCased before.reverse = false) (hafter : meetsCased after = false)
    (part : List Char) : SameSigmas before part after := by
  intro front back _
  rw [endsWord, endsWord, meetsCased_append_of_false hbefore, meetsCased_append_of_false hafter]

end DocStore.Text
