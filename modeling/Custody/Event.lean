/-
What happened to a component.

Every change of the vault or the engine is told by an event that carries the
amounts and parameters involved, so that the state can be rebuilt from its events.
A log keeps the newest events and numbers all of them; numbers go on when old events
are pruned or drained.
-/
import Custody.Params
import Custody.Timestamp

namespace Custody

/-- Which delayed change an event is about. -/
inductive Knob where
  /-- Listing a token. -/
  | addCollateral (token : Address)
  /-- New parameters for a listed token. -/
  | updateCollateral (token : Address)
  /-- Another borrow module. -/
  | borrowModule
deriving DecidableEq

/-- A change of a component. -/
inductive Event where
  /-- A user deposited; the amount is what arrived. -/
  | deposited (user token : Address) (amount : Amount)
  /-- A funder deposited for a user. -/
  | depositedFor (funder user token : Address) (amount : Amount)
  /-- The borrow module released collateral. -/
  | withdrawn (user token : Address) (amount : Amount)
  /-- An operator released collateral. -/
  | withdrawnFor (operator user token : Address) (amount : Amount) (recipient : Address)
      (healthCheckSkipped : Bool)
  /-- Collateral went to a liquidator. -/
  | seized (user token : Address) (amount : Amount) (liquidator : Address)
  /-- A position was liquidated. -/
  | liquidated (borrower liquidator token : Address) (debtRepaid collateralSeized : Amount)
  /-- A shortfall was recorded. -/
  | badDebtRecorded (borrower : Address) (amount totalBadDebt : Amount)
  /-- A record was written off. -/
  | badDebtSocialized (borrower : Address) (recorded absorbed : Amount)
  /-- The sizing of liquidations changed. -/
  | liquidationParamsUpdated (closeFactor fullThreshold : UInt64)
  /-- A delayed change was proposed. -/
  | adminChangeRequested (knob : Knob) (requestedAt readyAt : Timestamp)
  /-- A delayed change was cancelled. -/
  | adminChangeCancelled (knob : Knob)
  /-- A token was listed or got new parameters. -/
  | collateralConfigured (token : Address) (params : CollateralParams) (viaGovernance : Bool)
  /-- The borrow module was replaced. -/
  | borrowModuleChanged (previous current : Address)
  /-- Deposits of a token were opened or closed. -/
  | collateralStatusChanged (token : Address) (enabled : Bool)
  /-- A role was granted. -/
  | roleGranted (role : Role) (account : Address)
  /-- A role was revoked. -/
  | roleRevoked (role : Role) (account : Address)
  /-- A pause began or ended. -/
  | pauseChanged (paused : Bool) (author : Address)
deriving DecidableEq

/-- The name of the kind of an event. -/
def Event.kind : Event → String
  | deposited .. => "Deposited"
  | depositedFor .. => "DepositedFor"
  | withdrawn .. => "Withdrawn"
  | withdrawnFor .. => "WithdrawnFor"
  | seized .. => "Seized"
  | liquidated .. => "Liquidated"
  | badDebtRecorded .. => "BadDebtRecorded"
  | badDebtSocialized .. => "BadDebtSocialized"
  | liquidationParamsUpdated .. => "LiquidationParamsUpdated"
  | adminChangeRequested .. => "AdminChangeRequested"
  | adminChangeCancelled .. => "AdminChangeCancelled"
  | collateralConfigured .. => "CollateralConfigured"
  | borrowModuleChanged .. => "BorrowModuleChanged"
  | collateralStatusChanged .. => "CollateralStatusChanged"
  | roleGranted .. => "RoleGranted"
  | roleRevoked .. => "RoleRevoked"
  | pauseChanged .. => "PauseChanged"

/-- An event with its number and the time of the call that caused it. -/
structure LogEntry where
  sequence : UInt64
  timestamp : Timestamp
  event : Event
deriving DecidableEq

/-- The newest events of a component, oldest first. -/
structure EventLog where
  /-- The number the next event gets. -/
  next : UInt64
  entries : Array LogEntry
  /-- Most entries kept. -/
  limit : UInt64
deriving DecidableEq

namespace EventLog

/-- A log that keeps this many events, and at least one. -/
def keeping (limit : UInt64) : EventLog := ⟨0, #[], if limit = 0 then 1 else limit⟩

/-- A log of the usual length. -/
def standard : EventLog := keeping retainedEvents

/-- Add an event and drop the oldest ones beyond the limit. -/
def add (log : EventLog) (now : Timestamp) (event : Event) : EventLog :=
  let entries := log.entries.push ⟨log.next, now, event⟩
  let excess := entries.size - log.limit.toNat
  { log with
    next := log.next + 1
    entries := if excess = 0 then entries else entries.extract excess entries.size }

/-- The entries that are kept, oldest first. -/
def toList (log : EventLog) : List LogEntry :=
  log.entries.toList

/-- The log without its entries; numbering goes on. -/
def drained (log : EventLog) : EventLog :=
  { log with entries := #[] }

/-- The newest event. -/
def last? (log : EventLog) : Option Event :=
  log.entries.back?.map (·.event)

end EventLog

end Custody
