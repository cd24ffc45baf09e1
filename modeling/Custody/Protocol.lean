/-
The vault, the engine and their collaborators as one state.

Every entry point of a component runs with the guard of that component entered.  An
atomic call restores the components, the ledger and the bank when it is refused; the
oracle and the clock are not touched by calls.
-/
import Custody.Engine

namespace Custody

/-- The whole state. -/
structure Protocol where
  vault : Vault
  engine : Engine
  ledger : Ledger
  oracle : Oracle
  bank : Bank
  clock : Timestamp

namespace Protocol

variable {α : Type}

/-! ### Running on a part -/

/-- Run on the vault. -/
def onVault : Action Vault α → Action Protocol α :=
  Action.on vault fun v p => { p with vault := v }

/-- Run on the engine. -/
def onEngine : Action Engine α → Action Protocol α :=
  Action.on engine fun e p => { p with engine := e }

/-- Run on the ledger. -/
def onLedger : Action Ledger α → Action Protocol α :=
  Action.on ledger fun l p => { p with ledger := l }

/-- Run on the bank. -/
def onBank : Action Bank α → Action Protocol α :=
  Action.on bank fun b p => { p with bank := b }

/-! ### Entry points -/

/-- Run a call with the vault's guard entered. -/
def vaultCall : Action Protocol α → Action Protocol α :=
  Guard.hold (·.vault.guard) fun g p => { p with vault := { p.vault with guard := g } }

/-- Run a call with the engine's guard entered. -/
def engineCall : Action Protocol α → Action Protocol α :=
  Guard.hold (·.engine.guard) fun g p => { p with engine := { p.engine with guard := g } }

/-- What a refused transaction restores. -/
def restore (before after : Protocol) : Protocol :=
  { after with
    vault := before.vault.copy
    engine := before.engine.copy
    ledger := before.ledger
    bank := before.bank }

/-- Run a call as a transaction: refused, it leaves no trace. -/
def atomic : Action Protocol α → Action Protocol α :=
  Action.orRestore restore

/-! ### Reading -/

/-- The health factor that decides about liquidation. -/
def health (p : Protocol) (borrower : Address) : Except Error UInt64 :=
  Engine.health p.vault p.ledger p.oracle borrower

/-- The two-step reading of a health factor. -/
def healthReading (p : Protocol) (user : Address) : Health.Reading :=
  Health.read p.ledger p.oracle p.vault.view user

/-- Whether a borrower can be liquidated now. -/
def isLiquidatable (p : Protocol) (borrower : Address) : Except Error Bool :=
  Engine.isLiquidatable p.vault p.ledger p.oracle borrower

/-- The most that one liquidation of a borrower may repay now. -/
def maxRepayable (p : Protocol) (borrower : Address) : Except Error Amount :=
  p.engine.maxRepayable p.vault p.ledger p.oracle borrower

/-- What an offered repayment would seize. -/
def quote (p : Protocol) (borrower token : Address) (offer : Amount) : Except Error Quote :=
  Engine.quote p.vault p.oracle p.bank borrower token offer

/-- Check the books of the vault and of the engine. -/
def verify (p : Protocol) : Except Error Unit := do
  p.vault.verify
  p.engine.verify

end Protocol

end Custody
