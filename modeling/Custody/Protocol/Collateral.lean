/-
Collateral that comes in and goes out.

A deposit books what arrived at the vault's account, which may be less than what the
user sent.  A withdrawal books first and then sends; if sending fails, the booking is
undone.  On the integrator's path the health factor that the user would be left with
is checked in between.
-/
import Custody.Protocol

namespace Custody.Protocol

/-! ### Deposits -/

/-- Pull tokens from a funder and book what arrived for a user. -/
def pull (funder user token : Address) (amount : Amount) : Action Protocol Amount := do
  if amount = 0 then throw .zeroAmount
  let p ← get
  p.vault.ensureEnabled token
  let account := p.vault.address
  onBank (Bank.transferFrom token account funder account amount)
  let received ← ((← get).bank.balance token account).subtract (p.bank.balance token account)
  if received = 0 then throw .zeroAmount
  onVault (Vault.credit user token received)
  return received

/-- Deposit the caller's tokens; answers with what arrived. -/
def deposit (ctx : Context) (token : Address) (amount : Amount) : Action Protocol Amount :=
  vaultCall do
    (← get).vault.ensureRunning
    let received ← pull ctx.caller ctx.caller token amount
    onVault (Vault.tell ctx.now (.deposited ctx.caller token received))
    return received

/-- Deposit the caller's tokens for a user; answers with what arrived. -/
def depositFor (ctx : Context) (user token : Address) (amount : Amount) :
    Action Protocol Amount :=
  vaultCall do
    let p ← get
    p.vault.ensureRunning
    p.vault.access.ensure .leverageVault ctx.caller
    user.ensureNonZero "user"
    let received ← pull ctx.caller user token amount
    onVault (Vault.tell ctx.now (.depositedFor ctx.caller user token received))
    return received

/-! ### Withdrawals -/

/-- Send tokens of the vault after a debit, and undo the debit if that fails. -/
def send (receipt : Vault.Receipt) (recipient : Address) (amount : Amount)
    (check : Action Protocol Unit) : Action Protocol Unit :=
  Action.undoing (fun p => { p with vault := p.vault.undo receipt }) do
    check
    onBank (Bank.transfer receipt.token (← get).vault.address recipient amount)

/-- Release collateral to its user; only the borrow module may call. -/
def withdraw (ctx : Context) (user token : Address) (amount : Amount) : Action Protocol Unit :=
  vaultCall do
    if ctx.caller ≠ (← get).vault.borrowModule then
      throw (.unauthorized s!"{ctx.caller} is not the borrow module")
    if amount = 0 then throw .zeroAmount
    let receipt ← onVault (Vault.debit user token amount)
    send receipt user amount (pure ())
    onVault (Vault.tell ctx.now (.withdrawn user token amount))

/-- Release a user's collateral to a liquidator. -/
def seize (ctx : Context) (user token : Address) (amount : Amount) (liquidator : Address) :
    Action Protocol Unit :=
  vaultCall do
    (← get).vault.access.ensure .liquidation ctx.caller
    liquidator.ensureNonZero "liquidator"
    if amount = 0 then throw .zeroAmount
    let receipt ← onVault (Vault.debit user token amount)
    send receipt liquidator amount (pure ())
    onVault (Vault.tell ctx.now (.seized user token amount liquidator))

/-- Refuse to leave a user with debt below the withdrawal margin. -/
def checkMargin (p : Protocol) (user : Address) : Except Error Unit :=
  if p.ledger.debt user = 0 then .ok ()
  else
    match (p.healthReading user).value? with
    | none => .error .oracleUnavailable
    | some factor =>
      if factor < withdrawalMarginBps then
        .error (.withdrawalWouldUndercollateralize factor withdrawalMarginBps)
      else .ok ()

/-- Release a user's collateral on the integrator's path.  Without the health check only
the caller and the user may receive. -/
def withdrawFor (ctx : Context) (user token : Address) (amount : Amount) (recipient : Address)
    (skipCheck : Bool) : Action Protocol Unit :=
  vaultCall do
    let p ← get
    p.vault.ensureRunning
    p.vault.access.ensure .leverageVault ctx.caller
    if amount = 0 then throw .zeroAmount
    recipient.ensureNonZero "recipient"
    if skipCheck ∧ recipient ≠ ctx.caller ∧ recipient ≠ user then
      throw (.invalidRecipient recipient)
    let receipt ← onVault (Vault.debit user token amount)
    send receipt recipient amount do
      unless skipCheck do checkMargin (← get) user
    onVault (Vault.tell ctx.now (.withdrawnFor ctx.caller user token amount recipient skipCheck))

end Custody.Protocol
