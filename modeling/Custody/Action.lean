/-
Calls that change a state and may be refused.

A refused call keeps whatever it had changed before it was refused.  Restoring a
state is therefore a decision that a call states in its own text, with `undoing` or
`orRestore`, and never a side effect of being refused.
-/
import Custody.Error

namespace Custody

/-- A change of a state `σ` that answers with an `α` or is refused with an error. -/
abbrev Action (σ α : Type) := EStateM Error σ α

namespace Action

variable {σ τ α : Type}

/-- A pure check inside an action. -/
def ofExcept : Except Error α → Action σ α
  | .ok a => fun s => .ok a s
  | .error e => fun s => .error e s

instance : MonadLift (Except Error) (EStateM Error σ) := ⟨ofExcept⟩

/-- Run an action on a part of a state. -/
def on (part : σ → τ) (update : τ → σ → σ) (x : Action τ α) : Action σ α := fun s =>
  match x (part s) with
  | .ok a t => .ok a (update t s)
  | .error e t => .error e (update t s)

/-- Refuse as `x` does, but with the state changed by `undo`. -/
def undoing (undo : σ → σ) (x : Action σ α) : Action σ α := fun s =>
  match x s with
  | .ok a t => .ok a t
  | .error e t => .error e (undo t)

/-- Refuse as `x` does, but with the state that `restore` makes of the states before
and after. -/
def orRestore (restore : σ → σ → σ) (x : Action σ α) : Action σ α := fun s =>
  match x s with
  | .ok a t => .ok a t
  | .error e t => .error e (restore s t)

end Action

end Custody
