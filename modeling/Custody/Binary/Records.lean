/-
The byte forms of the records of the vault and the engine.

A record is written field by field in a fixed order.  Guards are not written; what is
read has a guard that nobody has entered.  The members of roles may be written with
the roles in any order, which is why `Vault.bytesWith` and `Engine.bytesWith` are told it.
-/
import Custody.Binary
import Custody.Engine

namespace Custody

open Binary

/-! ### Parameters and pending changes -/

instance : Binary CollateralParams where
  encode p := encode p.factor ++ encode p.threshold ++ encode p.penalty
  decode := do return ⟨← decode, ← decode, ← decode⟩

instance : Binary CollateralConfig where
  encode c := encode c.enabled ++ encode c.params
  decode := do return ⟨← decode, ← decode⟩

instance : Binary LiquidationParams where
  encode p := encode p.closeFactor ++ encode p.fullThreshold
  decode := do return ⟨← decode, ← decode⟩

instance {α : Type} [Binary α] : Binary (PendingChange α) where
  encode p := encode p.value ++ encode p.requestedAt
  decode := do return ⟨← decode, ← decode⟩

instance {α : Type} [Binary α] : Binary (Timelock.Slot α) where
  encode s := encode s.knob ++ encode s.pending
  decode := do return ⟨← decode, ← decode⟩

instance {κ α : Type} [Ord κ] [Std.TransOrd κ] [Binary κ] [Binary α] :
    Binary (Timelock.Queue κ α) where
  encode q := encode q.knob ++ encode q.entries
  decode := do return ⟨← decode, ← decode⟩

/-! ### Events -/

instance : Binary Knob where
  encode
    | .addCollateral token => position 0 ++ encode token
    | .updateCollateral token => position 1 ++ encode token
    | .borrowModule => position 2
  decode := do
    match ← number 4 with
    | 0 => return .addCollateral (← decode)
    | 1 => return .updateCollateral (← decode)
    | 2 => return .borrowModule
    | _ => throw .badAlternative

/-- An event is written as its position and its fields. -/
def Event.bytes : Event → List UInt8
  | .deposited user token amount =>
    position 0 ++ encode user ++ encode token ++ encode amount
  | .depositedFor funder user token amount =>
    position 1 ++ encode funder ++ encode user ++ encode token ++ encode amount
  | .withdrawn user token amount =>
    position 2 ++ encode user ++ encode token ++ encode amount
  | .withdrawnFor operator user token amount recipient healthCheckSkipped =>
    position 3 ++ encode operator ++ encode user ++ encode token ++ encode amount
      ++ encode recipient ++ encode healthCheckSkipped
  | .seized user token amount liquidator =>
    position 4 ++ encode user ++ encode token ++ encode amount ++ encode liquidator
  | .liquidated borrower liquidator token debtRepaid collateralSeized =>
    position 5 ++ encode borrower ++ encode liquidator ++ encode token ++ encode debtRepaid
      ++ encode collateralSeized
  | .badDebtRecorded borrower amount totalBadDebt =>
    position 6 ++ encode borrower ++ encode amount ++ encode totalBadDebt
  | .badDebtSocialized borrower recorded absorbed =>
    position 7 ++ encode borrower ++ encode recorded ++ encode absorbed
  | .liquidationParamsUpdated closeFactor fullThreshold =>
    position 8 ++ encode closeFactor ++ encode fullThreshold
  | .adminChangeRequested knob requestedAt readyAt =>
    position 9 ++ encode knob ++ encode requestedAt ++ encode readyAt
  | .adminChangeCancelled knob => position 10 ++ encode knob
  | .collateralConfigured token params viaGovernance =>
    position 11 ++ encode token ++ encode params ++ encode viaGovernance
  | .borrowModuleChanged previous current =>
    position 12 ++ encode previous ++ encode current
  | .collateralStatusChanged token enabled => position 13 ++ encode token ++ encode enabled
  | .roleGranted role account => position 14 ++ encode role ++ encode account
  | .roleRevoked role account => position 15 ++ encode role ++ encode account
  | .pauseChanged paused author => position 16 ++ encode paused ++ encode author

/-- Read an event. -/
def Event.reader : Reader Event := do
  match ← number 4 with
  | 0 => return .deposited (← decode) (← decode) (← decode)
  | 1 => return .depositedFor (← decode) (← decode) (← decode) (← decode)
  | 2 => return .withdrawn (← decode) (← decode) (← decode)
  | 3 =>
    return .withdrawnFor (← decode) (← decode) (← decode) (← decode)
      (← decode) (← decode)
  | 4 => return .seized (← decode) (← decode) (← decode) (← decode)
  | 5 => return .liquidated (← decode) (← decode) (← decode) (← decode) (← decode)
  | 6 => return .badDebtRecorded (← decode) (← decode) (← decode)
  | 7 => return .badDebtSocialized (← decode) (← decode) (← decode)
  | 8 => return .liquidationParamsUpdated (← decode) (← decode)
  | 9 => return .adminChangeRequested (← decode) (← decode) (← decode)
  | 10 => return .adminChangeCancelled (← decode)
  | 11 => return .collateralConfigured (← decode) (← decode) (← decode)
  | 12 => return .borrowModuleChanged (← decode) (← decode)
  | 13 => return .collateralStatusChanged (← decode) (← decode)
  | 14 => return .roleGranted (← decode) (← decode)
  | 15 => return .roleRevoked (← decode) (← decode)
  | 16 => return .pauseChanged (← decode) (← decode)
  | _ => throw .badAlternative

instance : Binary Event := ⟨Event.bytes, Event.reader⟩

instance : Binary LogEntry where
  encode e := encode e.sequence ++ encode e.timestamp ++ encode e.event
  decode := do return ⟨← decode, ← decode, ← decode⟩

instance : Binary EventLog where
  encode log := encode log.next ++ encode log.entries ++ encode log.limit
  decode := do return ⟨← decode, ← decode, ← decode⟩

/-! ### Roles, bad debt and statistics -/

/-- The members of each role, listed in some order. -/
abbrev Listing := List (Role × KeySet Address)

instance : Binary BadDebt where
  encode b := encode b.total ++ encode b.records
  decode := do return ⟨← decode, ← decode⟩

instance : Binary Statistics where
  encode s := encode s.liquidations ++ encode s.debtRepaid ++ encode s.capped ++ encode s.socialized
  decode := do return ⟨← decode, ← decode, ← decode, ← decode⟩

/-- Read the members of roles, listed in any order. -/
def Access.reader : Reader Access := do
  return ⟨← decode⟩

/-! ### The vault -/

namespace Vault

/-- The bytes of a vault, with the members of its roles listed like this. -/
def bytesWith (listing : Listing) (v : Vault) : List UInt8 :=
  encode v.address ++ encode listing ++ encode v.borrowModule ++ encode v.configs
    ++ encode v.listed ++ encode v.deposits ++ encode v.totals ++ encode v.pendingAdds
    ++ encode v.pendingUpdates ++ encode v.pendingModule ++ encode v.paused ++ encode v.events

/-- The bytes of a vault, with its roles in ascending order. -/
def bytes (v : Vault) : List UInt8 :=
  v.bytesWith v.access.members.entries

/-- Read a vault. -/
def reader : Reader Vault := do
  return {
    address := ← decode
    access := ← Access.reader
    borrowModule := ← decode
    configs := ← decode
    listed := ← decode
    deposits := ← decode
    totals := ← decode
    pendingAdds := ← decode
    pendingUpdates := ← decode
    pendingModule := ← decode
    paused := ← decode
    events := ← decode
    guard := .free }

instance : Binary Vault := ⟨bytes, reader⟩

end Vault

/-! ### The engine -/

namespace Engine

/-- The bytes of an engine, with the members of its roles listed like this. -/
def bytesWith (listing : Listing) (e : Engine) : List UInt8 :=
  encode e.address ++ encode e.debtToken ++ encode listing ++ encode e.params
    ++ encode e.badDebt ++ encode e.statistics ++ encode e.paused ++ encode e.events

/-- The bytes of an engine, with its roles in ascending order. -/
def bytes (e : Engine) : List UInt8 :=
  e.bytesWith e.access.members.entries

/-- Read an engine. -/
def reader : Reader Engine := do
  return {
    address := ← decode
    debtToken := ← decode
    access := ← Access.reader
    params := ← decode
    badDebt := ← decode
    statistics := ← decode
    paused := ← decode
    events := ← decode
    guard := .free }

instance : Binary Engine := ⟨bytes, reader⟩

end Engine

end Custody
