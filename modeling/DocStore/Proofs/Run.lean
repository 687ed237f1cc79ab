import DocStore.Run

/-!
# Outcomes and notices of runs

What a run answers and what it sends, one equation per operation.
Outcomes compose as in `Except`: a result is passed on
(`outcome_bind_of_ok`), an error ends the run (`outcome_bind_of_error`).
The notices of a step stand in front of those of the steps behind it
(`prefix_notices_bind`).
-/

namespace DocStore

/-! ## Results and errors -/

section Except

variable {ε ε' α β : Type}

theorem ok_bind (a : α) (f : α → Except ε β) : (Except.ok a >>= f) = f a := rfl

theorem bind_ok (x : Except ε α) : (x >>= fun a => Except.ok a) = x := by
  cases x <;> rfl

theorem bind_eq_ok_iff {x : Except ε α} {f : α → Except ε β} {b : β} :
    (x >>= f) = .ok b ↔ ∃ a, x = .ok a ∧ f a = .ok b := by
  cases x with
  | error e => exact ⟨fun h => (by cases h), fun ⟨_, h, _⟩ => (by cases h)⟩
  | ok a => exact ⟨fun h => ⟨a, rfl, h⟩, fun ⟨_, ha, h⟩ => Except.ok.inj ha ▸ h⟩

theorem bind_eq_error_iff {x : Except ε α} {f : α → Except ε β} {e : ε} :
    (x >>= f) = .error e ↔ x = .error e ∨ ∃ a, x = .ok a ∧ f a = .error e := by
  cases x with
  | error e' => simp [Bind.bind, Except.bind]
  | ok a => simp [ok_bind]

theorem map_ok (f : α → β) (a : α) : (Except.ok a : Except ε α).map f = .ok (f a) := rfl

theorem map_eq_ok_iff {f : α → β} {x : Except ε α} {b : β} :
    x.map f = .ok b ↔ ∃ a, x = .ok a ∧ f a = b := by
  cases x <;> simp [Except.map]

theorem mapError_ok (f : ε → ε') (a : α) : (Except.ok a).mapError f = .ok a := rfl

theorem mapError_error (f : ε → ε') (e : ε) :
    (Except.error e : Except ε α).mapError f = .error (f e) := rfl

@[simp] theorem mapError_eq_ok_iff {f : ε → ε'} {x : Except ε α} {a : α} :
    x.mapError f = .ok a ↔ x = .ok a := by
  cases x <;> simp [mapError_ok, mapError_error]

theorem mapError_eq_error_iff {f : ε → ε'} {x : Except ε α} {e : ε'} :
    x.mapError f = .error e ↔ ∃ cause, x = .error cause ∧ e = f cause := by
  cases x <;> simp [mapError_ok, mapError_error, eq_comm]

theorem mapError_bind (f : ε → ε') (x : Except ε α) (g : α → Except ε β) :
    (x >>= g).mapError f = x.mapError f >>= fun a => (g a).mapError f := by
  cases x <;> rfl

theorem map_eq_error_iff {f : α → β} {x : Except ε α} {e : ε} :
    x.map f = .error e ↔ x = .error e := by
  cases x <;> simp [Except.map]

theorem eq_ok_of_toOption {x : Except ε α} {a : α} (h : x.toOption = some a) : x = .ok a := by
  cases x with
  | error e => cases h
  | ok b => exact congrArg Except.ok (Option.some.inj h)

/-- A result that passes a test. -/
theorem exists_ok_of_any {x : Except ε α} {p : α → Bool} (h : x.toOption.any p = true) :
    ∃ a, x = .ok a ∧ p a = true := by
  cases x with
  | error e => cases h
  | ok a => exact ⟨a, rfl, h⟩

/-- A result of which something holds, or an error of which something
holds. -/
def EndsIn (x : Except ε α) (good : α → Prop) (bad : ε → Prop) : Prop :=
  match x with
  | .ok a => good a
  | .error e => bad e

namespace EndsIn

variable {x : Except ε α} {good fine : α → Prop} {bad worse : ε → Prop}

theorem trivial (x : Except ε α) : EndsIn x (fun _ => True) fun _ => True := by
  cases x <;> exact True.intro

theorem of_ok (h : EndsIn x good bad) {a : α} (hx : x = .ok a) : good a := by
  subst hx
  exact h

theorem of_error (h : EndsIn x good bad) {e : ε} (hx : x = .error e) : bad e := by
  subst hx
  exact h

/-- If there is no error to end in, there is a result. -/
theorem exists_ok (h : EndsIn x good bad) (hbad : ∀ e, ¬ bad e) : ∃ a, x = .ok a ∧ good a := by
  cases x with
  | ok a => exact ⟨a, rfl, h⟩
  | error e => exact absurd h (hbad e)

theorem mono (h : EndsIn x good bad) (hgood : ∀ a, good a → fine a)
    (hbad : ∀ e, bad e → worse e) : EndsIn x fine worse := by
  cases x with
  | error e => exact hbad e h
  | ok a => exact hgood a h

/-- A further step. -/
theorem bind {f : α → Except ε β} {fine : β → Prop} (h : EndsIn x good bad)
    (hf : ∀ a, good a → EndsIn (f a) fine bad) : EndsIn (x >>= f) fine bad := by
  cases x with
  | error e => exact h
  | ok a => exact hf a h

theorem map {f : α → β} {fine : β → Prop} (h : EndsIn x good bad)
    (hf : ∀ a, good a → fine (f a)) : EndsIn (x.map f) fine bad := by
  cases x with
  | error e => exact h
  | ok a => exact hf a h

/-- Errors that are worded differently. -/
theorem mapError {f : ε → ε'} {worse : ε' → Prop} (h : EndsIn x good bad)
    (hf : ∀ e, bad e → worse (f e)) : EndsIn (x.mapError f) good worse := by
  cases x with
  | error e => exact hf e h
  | ok a => exact h

/-- A search ends in the errors of its tests. -/
theorem anyM {xs : List α} {test : α → Except ε Bool}
    (h : ∀ a ∈ xs, EndsIn (test a) (fun _ => True) bad) :
    EndsIn (xs.anyM test) (fun _ => True) bad := by
  induction xs with
  | nil => exact True.intro
  | cons a rest ih =>
      obtain ⟨ha, hrest⟩ := List.forall_mem_cons.mp h
      rw [List.anyM_cons]
      refine ha.bind fun found _ => ?_
      cases found with
      | true => exact True.intro
      | false => exact ih hrest

end EndsIn

end Except

namespace Run

/-! ## Runs -/

variable {ν ε ε' α β : Type}

@[simp] theorem outcome_pure (a : α) : (pure a : Run ν ε α).outcome = .ok a := rfl

@[simp] theorem outcome_notify (n : ν) : (notify n : Run ν ε Unit).outcome = .ok () := rfl

@[simp] theorem outcome_fail (e : ε) : (fail e : Run ν ε α).outcome = .error e := rfl

@[simp] theorem outcome_ofExcept (x : Except ε α) : (ofExcept x : Run ν ε α).outcome = x := rfl

@[simp] theorem outcome_mapError (f : ε → ε') (x : Run ν ε α) :
    (x.mapError f).outcome = x.outcome.mapError f := rfl

@[simp] theorem outcome_bind (x : Run ν ε α) (f : α → Run ν ε β) :
    (x >>= f).outcome = x.outcome >>= fun a => (f a).outcome := by
  show (x.bind f).outcome = _
  unfold Run.bind
  cases h : x.outcome <;> rfl

/-- A run that failed does not go on. -/
@[simp] theorem fail_bind (e : ε) (f : α → Run ν ε β) : (fail e >>= f) = fail e := rfl

theorem outcome_bind_of_ok {x : Run ν ε α} {a : α} (h : x.outcome = .ok a)
    (f : α → Run ν ε β) : (x >>= f).outcome = (f a).outcome := by
  rw [outcome_bind, h]
  rfl

theorem outcome_bind_of_error {x : Run ν ε α} {e : ε} (h : x.outcome = .error e)
    (f : α → Run ν ε β) : (x >>= f).outcome = .error e := by
  rw [outcome_bind, h]
  rfl

/-- Errors that are worded differently twice. -/
theorem mapError_mapError {ε'' : Type} (f : ε → ε') (g : ε' → ε'') (x : Except ε α) :
    (x.mapError f).mapError g = x.mapError fun e => g (f e) := by
  cases x <;> rfl

theorem mapError_ofExcept (f : ε → ε') (x : Except ε α) :
    (ofExcept x : Run ν ε α).mapError f = ofExcept (x.mapError f) := rfl

theorem ofExcept_ok_bind (a : α) (f : α → Run ν ε β) :
    ((ofExcept (.ok a) : Run ν ε α) >>= f) = f a := rfl

/-! ## Notices -/

@[simp] theorem notices_pure (a : α) : (pure a : Run ν ε α).notices = [] := rfl

@[simp] theorem notices_notify (n : ν) : (notify n : Run ν ε Unit).notices = [n] := rfl

@[simp] theorem notices_ofExcept (x : Except ε α) : (ofExcept x : Run ν ε α).notices = [] := rfl

@[simp] theorem notices_mapError (f : ε → ε') (x : Run ν ε α) :
    (x.mapError f).notices = x.notices := rfl

theorem notices_bind_of_ok {x : Run ν ε α} {a : α} (h : x.outcome = .ok a)
    (f : α → Run ν ε β) : (x >>= f).notices = x.notices ++ (f a).notices := by
  show (x.bind f).notices = _
  rw [Run.bind, h]

theorem notices_bind_of_error {x : Run ν ε α} {e : ε} (h : x.outcome = .error e)
    (f : α → Run ν ε β) : (x >>= f).notices = x.notices := by
  show (x.bind f).notices = _
  rw [Run.bind, h]

/-- The result is changed, the notices are not. -/
theorem bind_pure_eq (x : Run ν ε α) (f : α → β) :
    (x >>= fun a => pure (f a)) = ⟨x.notices, x.outcome.map f⟩ := by
  obtain ⟨ns, o⟩ := x
  show Run.bind _ _ = _
  cases o with
  | ok a => simp [Run.bind, Except.map]
  | error e => rfl

theorem prefix_notices_bind (x : Run ν ε α) (f : α → Run ν ε β) :
    x.notices <+: (x >>= f).notices := by
  cases h : x.outcome with
  | ok a =>
      rw [notices_bind_of_ok h]
      exact List.prefix_append ..
  | error e => exact ⟨[], by rw [notices_bind_of_error h, List.append_nil]⟩

/-- What holds of the notices of both steps holds of all. -/
theorem forall_notices_bind {p : ν → Prop} {x : Run ν ε α} {f : α → Run ν ε β}
    (hx : ∀ n ∈ x.notices, p n) (hf : ∀ a, ∀ n ∈ (f a).notices, p n) :
    ∀ n ∈ (x >>= f).notices, p n := by
  intro n hn
  cases h : x.outcome with
  | ok a =>
      rw [notices_bind_of_ok h] at hn
      exact (List.mem_append.mp hn).elim (hx n) (hf a n)
  | error e =>
      rw [notices_bind_of_error h] at hn
      exact hx n hn

end Run

end DocStore
