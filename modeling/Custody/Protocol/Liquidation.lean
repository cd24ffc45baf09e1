/-
Liquidations and the write-off of bad debt.

Settling a liquidation moves four books: the repayment is pulled and burned, the
collateral is seized, and the debt is reduced.  If any step is refused, the vault,
the ledger and the bank are as before.  What the engine itself records comes after.
-/
import Custody.Protocol.Collateral

namespace Custody.Protocol

/-- Pull and burn the repayment, seize the collateral, reduce the debt. -/
def settle (ctx : Context) (borrower token : Address) (quote : Quote) : Action Protocol Unit := do
  let engine := (← get).engine
  onBank (Bank.transferFrom engine.debtToken engine.address ctx.caller engine.address quote.repay)
  onBank (Bank.burn engine.debtToken engine.address quote.repay)
  seize ⟨engine.address, ctx.now⟩ borrower token quote.seize ctx.caller
  onLedger (Ledger.reduce borrower quote.repay)

/-- What a settlement that is refused restores. -/
def unsettle (before after : Protocol) : Protocol :=
  { after with vault := before.vault.copy, ledger := before.ledger, bank := before.bank }

/-- Record a shortfall, if there is one. -/
def recordShortfall (ctx : Context) (borrower : Address) (shortfall : Amount) :
    Action Protocol Unit := do
  if 0 < shortfall then
    let total ← onEngine (Engine.onBadDebt (BadDebt.record borrower shortfall))
    onEngine (Engine.tell ctx.now (.badDebtRecorded borrower shortfall total))

/-- Refuse an offer that is zero or below the floor, or made by the borrower. -/
def checkOffer (liquidator borrower : Address) (offer : Amount) : Except Error Unit :=
  if liquidator = borrower then .error .selfLiquidation
  else if offer = 0 then .error .zeroAmount
  else if offer < dustFloor then .error (.dustLiquidation offer dustFloor)
  else .ok ()

/-- Repay up to an amount of a borrower's debt for collateral in a token. -/
def liquidate (ctx : Context) (borrower token : Address) (offer : Amount) :
    Action Protocol Outcome :=
  engineCall do
    let p ← get
    p.engine.ensureRunning
    checkOffer ctx.caller borrower offer
    let health ← p.health borrower
    if parityBps ≤ health then throw (.positionHealthy health)
    let limit ← p.engine.repayLimit (p.ledger.debt borrower) health
    let quote ← p.quote borrower token (min offer limit)
    if quote.seize = 0 ∨ quote.repay = 0 then throw .nothingToSeize
    Action.orRestore unsettle (settle ctx borrower token quote)
    recordShortfall ctx borrower quote.shortfall
    onEngine (Engine.count quote.repay quote.capped)
    onEngine (Engine.tell ctx.now
      (.liquidated borrower ctx.caller token quote.repay quote.seize))
    return ⟨borrower, ctx.caller, token, health, quote.repay, quote.seize, quote.shortfall⟩

/-- Charge a debt to the ledger's reserves and suppliers. -/
def writeOff (borrower : Address) (amount : Amount) : Action Ledger Unit := do
  Ledger.reduce borrower amount
  Ledger.absorb amount

/-- Write off the bad debt recorded against a borrower, as far as the borrower still
owes it; answers with the amount written off. -/
def socialize (ctx : Context) (borrower : Address) : Action Protocol Amount :=
  engineCall do
    let p ← get
    p.engine.access.ensure .governance ctx.caller
    let recorded := p.engine.badDebt.of borrower
    if recorded = 0 then throw (.noBadDebt borrower)
    let absorbed := min recorded (p.ledger.debt borrower)
    if 0 < absorbed then
      onLedger (Action.orRestore (fun before _ => before) (writeOff borrower absorbed))
    discard (onEngine (Engine.onBadDebt (BadDebt.clear borrower)))
    let sum ← (← get).engine.statistics.socialized.add absorbed
    onEngine do
      modify fun e => { e with statistics := { e.statistics with socialized := sum } }
      Engine.tell ctx.now (.badDebtSocialized borrower recorded absorbed)
    return absorbed

end Custody.Protocol
