/-
Locks against entering a component while it runs.

A guard is entered for the length of one call and left when the call ends, whether
it answers or is refused.  Copies of a component carry a guard of their own that
nobody has entered.

A pool numbers guards and the tokens they hand out, to say what holds of them when
tokens outlive one another.
-/
import Custody.Action

namespace Custody

/-- Whether a call holds the component. -/
structure Guard where
  entered : Bool := false
deriving DecidableEq

namespace Guard

/-- A guard that nobody has entered. -/
def free : Guard := ⟨false⟩

/-- Enter a guard that nobody has entered. -/
def enter : Action Guard Unit := do
  if (← get).entered then throw .reentrantCall
  set (Guard.mk true)

/-- Run a call with the guard entered, and leave the guard however the call ends.

What is left is the guard that the component has by then.  A flag does not tell which guard it is
of, so this is right because it is the same guard: no call puts another component, or a copy, in the
place of the one whose guard it holds.  A liquidation holds the engine, and what it puts back is the
vault, the ledger and the bank; a transaction puts back both components, and holds neither. -/
def hold {σ α : Type} (guard : σ → Guard) (update : Guard → σ → σ)
    (call : Action σ α) : Action σ α := fun s =>
  match enter (guard s) with
  | .error e _ => .error e s
  | .ok _ g =>
    match call (update g s) with
    | .ok a t => .ok a (update free t)
    | .error e t => .error e (update free t)

end Guard

/-! ### Several guards -/

/-- A token: the number of its guard, and whether it still holds the guard. -/
structure GuardToken where
  guard : Nat
  alive : Bool
deriving DecidableEq

/-- Guards numbered from zero and the tokens handed out, in order. -/
structure GuardPool where
  guards : List Guard
  tokens : List GuardToken
deriving DecidableEq

namespace GuardPool

/-- One guard and no token. -/
def start : GuardPool := ⟨[.free], []⟩

/-- Enter guard `i`; answers with the number of the token. -/
def enter (i : Nat) : Action GuardPool Nat := do
  let p ← get
  match p.guards[i]? with
  | none => throw (.internal s!"no guard {i}")
  | some g =>
    if g.entered then throw .reentrantCall
    set (GuardPool.mk (p.guards.set i ⟨true⟩) (p.tokens ++ [⟨i, true⟩]))
    return p.tokens.length

/-- Give token `i` back; a token that was given back before has no effect. -/
def release (i : Nat) : Action GuardPool Unit := do
  let p ← get
  match p.tokens[i]? with
  | none => return
  | some t =>
    if t.alive then
      set (GuardPool.mk (p.guards.set t.guard .free) (p.tokens.set i ⟨t.guard, false⟩))

/-- Copy a guard; answers with the number of the copy, which nobody has entered. -/
def copy : Action GuardPool Nat := do
  let p ← get
  set (GuardPool.mk (p.guards ++ [.free]) p.tokens)
  return p.guards.length

end GuardPool

end Custody
