/-
The ledger of debts.

A user without debt has no entry.  Bad debt is charged to the reserves first and to
the suppliers after that, whose losses are added up.
-/
import Custody.Action
import Custody.Arithmetic
import Custody.Book

namespace Custody

/-- Debts, and what stands behind them. -/
structure Ledger where
  debts : Tally
  /-- Bears losses first. -/
  reserves : Amount
  /-- Deposits of suppliers, which bear what reserves do not cover. -/
  supplied : Amount
  /-- What suppliers have lost so far. -/
  haircut : Amount
  /-- Whether reductions of debts are refused. -/
  rejecting : Bool
deriving DecidableEq

namespace Ledger

/-- The ledger without debts. -/
def empty : Ledger := ⟨.empty, 0, 0, 0, false⟩

/-- The debt of a user. -/
def debt (l : Ledger) (user : Address) : Amount :=
  Tally.amount l.debts user

/-- The sum of all debts, or the largest amount if the sum is larger. -/
def systemDebt (l : Ledger) : Amount :=
  l.debts.values.foldl (fun sum d =>
    match sum.add d with
    | .ok sum => sum
    | .error _ => Amount.largest) 0

/-- Write the debt of a user. -/
def setDebt (user : Address) (amount : Amount) : Action Ledger Unit :=
  modify fun l =>
    { l with debts := if amount = 0 then l.debts.erase user else l.debts.insert user amount }

/-- Write the reserves. -/
def setReserves (amount : Amount) : Action Ledger Unit :=
  modify fun l => { l with reserves := amount }

/-- Write the deposits of suppliers. -/
def setSupplied (amount : Amount) : Action Ledger Unit :=
  modify fun l => { l with supplied := amount }

/-- Refuse reductions of debts from now on, or take them again. -/
def setRejecting (rejecting : Bool) : Action Ledger Unit :=
  modify fun l => { l with rejecting := rejecting }

/-- Reduce the debt of a user. -/
def reduce (user : Address) (amount : Amount) : Action Ledger Unit := do
  let l ← get
  if l.rejecting then throw (.ledger "debt reductions rejected")
  let debt := l.debt user
  if debt < amount then
    throw (.ledger s!"reduction {amount} exceeds debt {debt} of {user}")
  setDebt user (debt - amount)

/-- Charge an amount to reserves and then to suppliers. -/
def absorb (amount : Amount) : Action Ledger Unit := do
  let l ← get
  let fromReserves := min amount l.reserves
  let remainder := amount - fromReserves
  if l.supplied < remainder then
    throw (.ledger
      s!"bad debt {amount} exceeds reserves {l.reserves} and supply {l.supplied}")
  set { l with reserves := l.reserves - fromReserves, supplied := l.supplied - remainder }
  let haircut ← l.haircut.add remainder
  modify fun l => { l with haircut := haircut }

end Ledger

end Custody
