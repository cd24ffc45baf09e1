/-
What happens around the components.

Owners move tokens and give allowances, debts and prices change, and time passes,
all without a call of the vault or the engine.
-/
import Custody.Protocol

namespace Custody

/-- A change of the bank, the ledger, the oracle or the clock. -/
inductive Happening where
  | registerToken (token : Address) (decimals : UInt8)
  | setFee (token : Address) (bps : UInt64)
  | setFrozen (token : Address) (frozen : Bool)
  | mint (token recipient : Address) (amount : Amount)
  | approve (token owner spender : Address) (amount : Amount)
  | transfer (token sender recipient : Address) (amount : Amount)
  | transferFrom (token spender owner recipient : Address) (amount : Amount)
  | burn (token account : Address) (amount : Amount)
  | setDebt (user : Address) (amount : Amount)
  | setReserves (amount : Amount)
  | setSupplied (amount : Amount)
  | setRejecting (rejecting : Bool)
  | reduceDebt (user : Address) (amount : Amount)
  | absorbLoss (amount : Amount)
  | setPrice (token : Address) (price : Amount) (decimals : UInt8)
  | setBreaker (token : Address) (isOpen : Bool)
  | setDown (token : Address) (isDown : Bool)
  /-- Time is set; a time in the past changes nothing. -/
  | setTime (now : Timestamp)
  /-- Time passes. -/
  | advance (seconds : UInt64)
deriving DecidableEq

namespace Protocol

/-- Write a time, even a past one. -/
def writeClock (now : Timestamp) : Action Protocol Unit :=
  modify fun p => { p with clock := now }

/-- Change the oracle. -/
def onOracle (change : Oracle → Oracle) : Action Protocol Unit :=
  modify fun p => { p with oracle := change p.oracle }

/-- Let something happen. -/
def happen : Happening → Action Protocol Unit
  | .registerToken token decimals => onBank (Bank.register token decimals)
  | .setFee token bps => onBank (Bank.setFee token bps)
  | .setFrozen token frozen => onBank (Bank.setFrozen token frozen)
  | .mint token recipient amount => onBank (Bank.mint token recipient amount)
  | .approve token owner spender amount => onBank (Bank.approve token owner spender amount)
  | .transfer token sender recipient amount => onBank (Bank.transfer token sender recipient amount)
  | .transferFrom token spender owner recipient amount =>
    onBank (Bank.transferFrom token spender owner recipient amount)
  | .burn token account amount => onBank (Bank.burn token account amount)
  | .setDebt user amount => onLedger (Ledger.setDebt user amount)
  | .setReserves amount => onLedger (Ledger.setReserves amount)
  | .setSupplied amount => onLedger (Ledger.setSupplied amount)
  | .setRejecting rejecting => onLedger (Ledger.setRejecting rejecting)
  | .reduceDebt user amount => onLedger (Ledger.reduce user amount)
  | .absorbLoss amount => onLedger (Ledger.absorb amount)
  | .setPrice token price decimals => onOracle (·.setPrice token price decimals)
  | .setBreaker token isOpen => onOracle (·.setBreaker token isOpen)
  | .setDown token isDown => onOracle (·.setDown token isDown)
  | .setTime now => do writeClock (max (← get).clock now)
  | .advance seconds => do writeClock (Timestamp.after (← get).clock seconds)

end Protocol

end Custody
