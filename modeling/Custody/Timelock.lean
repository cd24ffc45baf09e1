/-
Changes that wait for their delay.

A proposal records a value and the time of the request.  It may take effect once the
delay has passed since then.  A second proposal takes the place of the first and starts the
delay again, cancelling drops it, and reading a ready value leaves it in place, so
that the caller can check the value before it clears the proposal.

A slot holds one proposal, a queue one for each key.
-/
import Custody.Action
import Custody.Table
import Custody.Timestamp

namespace Custody

/-- A proposed value and the time of the request. -/
structure PendingChange (α : Type) where
  value : α
  requestedAt : Timestamp
deriving DecidableEq

namespace PendingChange

variable {α : Type}

/-- The first time at which the value may take effect. -/
def readyAt (p : PendingChange α) (delay : UInt64) : Timestamp :=
  Timestamp.after p.requestedAt delay

/-- The value, once its delay has passed. -/
def ready (p : PendingChange α) (now : Timestamp) (delay : UInt64) : Except Error α :=
  if now < p.readyAt delay then .error (.timelockNotElapsed (p.readyAt delay) now)
  else .ok p.value

end PendingChange

namespace Timelock

/-! ### One proposal -/

/-- A proposal for one knob. -/
structure Slot (α : Type) where
  knob : String
  pending : Option (PendingChange α)
deriving DecidableEq

namespace Slot

variable {α : Type}

/-- A slot without a proposal. -/
def vacant (knob : String) : Slot α := ⟨knob, none⟩

/-- Record a proposal in place of any other. -/
def propose (value : α) (now : Timestamp) : Action (Slot α) Unit :=
  modify fun s => { s with pending := some ⟨value, now⟩ }

/-- The proposal, which there has to be. -/
def required (s : Slot α) : Except Error (PendingChange α) :=
  match s.pending with
  | none => .error (.noPendingChange s.knob)
  | some p => .ok p

/-- Drop the proposal without effect. -/
def clear : Action (Slot α) Unit :=
  modify fun s => { s with pending := none }

/-- Drop the proposal, which there has to be, and answer with it. -/
def cancel : Action (Slot α) (PendingChange α) := do
  let p ← (← get).required
  clear
  return p

/-- The proposed value, once its delay has passed. -/
def ready (s : Slot α) (now : Timestamp) (delay : UInt64) : Except Error α := do
  let p ← s.required
  p.ready now delay

end Slot

/-! ### One proposal for each key -/

/-- Proposals for one knob, at most one for each key. -/
structure Queue (κ α : Type) [Ord κ] where
  knob : String
  entries : Table κ (PendingChange α)

namespace Queue

variable {κ α : Type} [Ord κ]

/-- A queue without proposals. -/
def vacant (knob : String) : Queue κ α := ⟨knob, .empty⟩

/-- The proposal for a key. -/
def get? (q : Queue κ α) (k : κ) : Option (PendingChange α) :=
  q.entries.get? k

/-- Record a proposal for a key in place of any other. -/
def propose [Std.TransOrd κ] (k : κ) (value : α) (now : Timestamp) : Action (Queue κ α) Unit :=
  modify fun q => { q with entries := q.entries.insert k ⟨value, now⟩ }

/-- The proposal for a key, which there has to be. -/
def required [ToString κ] (q : Queue κ α) (k : κ) : Except Error (PendingChange α) :=
  match q.get? k with
  | none => .error (.noPendingChange s!"{q.knob} {k}")
  | some p => .ok p

/-- Drop the proposal for a key without effect. -/
def clear (k : κ) : Action (Queue κ α) Unit :=
  modify fun q => { q with entries := q.entries.erase k }

/-- Drop the proposal for a key, which there has to be, and answer with it. -/
def cancel [ToString κ] (k : κ) : Action (Queue κ α) (PendingChange α) := do
  let p ← (← get).required k
  clear k
  return p

/-- The proposed value for a key, once its delay has passed. -/
def ready [ToString κ] (q : Queue κ α) (k : κ) (now : Timestamp) (delay : UInt64) :
    Except Error α := do
  let p ← q.required k
  p.ready now delay

end Queue

end Timelock

end Custody
