import DocStore.Validation.Issue

/-!
# Checked values

A checked value is a value or the issues that stand in its way. Parts
are checked side by side: `f <$> a <*> b` has the issues of `a` and then
those of `b`. `Checked.andThen` looks at a value that has no issues of
its own.
-/

namespace DocStore.Validation

/-- A value, or what stands in its way. -/
inductive Checked (α : Type) where
  | valid (a : α)
  | faulty (issues : List Issue)

namespace Checked

variable {α β : Type}

protected def map (f : α → β) : Checked α → Checked β
  | valid a => valid (f a)
  | faulty issues => faulty issues

/-- Both parts are checked; issues of the first come first. -/
protected def apply (f : Checked (α → β)) (x : Checked α) : Checked β :=
  match f, x with
  | valid f, valid a => valid (f a)
  | valid _, faulty issues => faulty issues
  | faulty issues, valid _ => faulty issues
  | faulty issues, faulty more => faulty (issues ++ more)

instance : Applicative Checked where
  pure := valid
  map := Checked.map
  seq f x := Checked.apply f (x ())

instance : LawfulApplicative Checked where
  map_const := rfl
  id_map x := by cases x <;> rfl
  seqLeft_eq x y := by cases x <;> cases y <;> rfl
  seqRight_eq x y := by cases x <;> cases y <;> rfl
  pure_seq f x := by cases x <;> rfl
  map_pure f x := rfl
  seq_pure f x := by cases f <;> rfl
  seq_assoc x f g := by
    cases x <;> cases f <;> cases g <;> simp [Seq.seq, Checked.apply, Functor.map, Checked.map]

/-- Goes on with a value that has no issues. -/
def andThen (x : Checked α) (f : α → Checked β) : Checked β :=
  match x with
  | valid a => f a
  | faulty issues => faulty issues

/-- The issues lie one step further down. -/
def under (step : String) : Checked α → Checked α
  | valid a => valid a
  | faulty issues => faulty (issues.map fun i => { i with path := step :: i.path })

/-- The outcome of a check of one value. -/
def ofFault (input : Given) : Except Fault α → Checked α
  | .ok a => valid a
  | .error fault => faulty [⟨[], fault, input⟩]

def toExcept : Checked α → Except (List Issue) α
  | valid a => .ok a
  | faulty issues => .error issues

/-- The values of a list, each checked. -/
def all : List (Checked α) → Checked (List α)
  | [] => valid []
  | x :: rest => List.cons <$> x <*> all rest

end Checked

end DocStore.Validation
