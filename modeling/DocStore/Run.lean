/-!
# Runs

A run is what a computation shows to the outside: the notices it sends,
in order, and its outcome, a result or an error. Runs are composed in
sequence; an error ends the sequence and keeps the notices sent before
it.
-/

namespace DocStore

/-- The notices and the outcome of a computation. -/
structure Run (ν ε α : Type) where
  notices : List ν
  outcome : Except ε α

namespace Run

variable {ν ε ε' α β : Type}

/-- A result without notices. -/
protected def pure (a : α) : Run ν ε α :=
  ⟨[], .ok a⟩

/-- Goes on with the result, unless the run failed. -/
protected def bind (x : Run ν ε α) (f : α → Run ν ε β) : Run ν ε β :=
  match x.outcome with
  | .ok a => ⟨x.notices ++ (f a).notices, (f a).outcome⟩
  | .error e => ⟨x.notices, .error e⟩

instance : Monad (Run ν ε) where
  pure := Run.pure
  bind := Run.bind

/-- Sends a notice. -/
def notify (n : ν) : Run ν ε Unit :=
  ⟨[n], .ok ()⟩

/-- Fails. -/
def fail (e : ε) : Run ν ε α :=
  ⟨[], .error e⟩

/-- An outcome without notices. -/
def ofExcept (x : Except ε α) : Run ν ε α :=
  ⟨[], x⟩

/-- Words the error differently. -/
def mapError (f : ε → ε') (x : Run ν ε α) : Run ν ε' α :=
  ⟨x.notices, x.outcome.mapError f⟩

/-- Turns the outcome into a result. -/
def attempt (x : Run ν ε α) : Run ν ε' (Except ε α) :=
  ⟨x.notices, .ok x.outcome⟩

theorem pure_bind (a : α) (f : α → Run ν ε β) : (Run.pure a).bind f = f a := by
  simp [Run.pure, Run.bind]

theorem bind_pure (x : Run ν ε α) : x.bind Run.pure = x := by
  obtain ⟨ns, o⟩ := x
  cases o <;> simp [Run.pure, Run.bind]

theorem bind_assoc {γ : Type} (x : Run ν ε α) (f : α → Run ν ε β) (g : β → Run ν ε γ) :
    (x.bind f).bind g = x.bind fun a => (f a).bind g := by
  obtain ⟨ns, o⟩ := x
  cases o with
  | error e => rfl
  | ok a => cases h : (f a).outcome <;> simp [Run.bind, h]

instance : LawfulMonad (Run ν ε) :=
  LawfulMonad.mk' (Run ν ε) bind_pure pure_bind bind_assoc

end Run

end DocStore
