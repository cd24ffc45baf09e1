/-
Calls with a calculator.

Amounts are subtracted without a check where something is known to make it safe: a comparison just
before, a minimum, or a book.  The whole and a penalty are added without a check because penalties
are small.  What the plain operations answer where they are not safe is no number that anybody
wants, and nobody would be told.

So the calls are written here once more, with a calculator for these operations and for the checked
differences.  With the plain calculator they are the calls of the program, step by step.  Any other
calculator may refuse where the plain one answers, and the calls are refused there, too.
-/
import Custody.Proofs.Alarm

namespace Custody

open Custody.Action

/-- How differences are formed, and the whole with a penalty. -/
structure Calculator where
  /-- A difference without a check. -/
  minus (a b : Amount) : Except Error Amount
  /-- A difference with a check. -/
  subtract (a b : Amount) : Except Error Amount
  /-- The whole and a penalty, without a check. -/
  penalize (penalty : UInt64) : Except Error Amount

namespace Calculator

/-- The calculator of the program. -/
def plain : Calculator where
  minus a b := .ok (a - b)
  subtract := Amount.subtract
  penalize penalty := .ok (Amount.withPenalty penalty)

/-- The calculator that refuses what is no difference, and a sum that is no word.  It adds the whole
and a penalty as words, so where it answers like the plain one, nothing has wrapped around. -/
def watchful : Calculator where
  minus a b := if b ≤ a then .ok (a - b) else .error (.internal s!"{a} - {b}")
  subtract a b := if b ≤ a then .ok (a - b) else .error (.internal s!"{a} - {b}")
  penalize penalty :=
    if bpsWhole.toNat + penalty.toNat < UInt64.size then .ok (Amount.ofWord (bpsWhole + penalty))
    else .error (.internal s!"{bpsWhole} + {penalty}")

variable (c : Calculator)

/-! ### The bank -/

/-- Take an amount from one account and give it, less the fee, to another. -/
def move (token sender recipient : Address) (amount : Amount) : Action Bank Unit := do
  let b ← get
  let available := b.balance token sender
  if available < amount then
    throw (.transferFailed token s!"balance {available} below {amount}")
  let fee ← amount.share (b.fee token)
  let received ← c.subtract amount fee
  let rest ← c.minus available amount
  Bank.putBalance token sender rest
  let balance ← ((← get).balance token recipient).add received
  Bank.putBalance token recipient balance
  if 0 < fee then Bank.putSupply token (b.totalSupply token - fee)

/-- Move the sender's own tokens. -/
def transfer (token sender recipient : Address) (amount : Amount) : Action Bank Unit := do
  (← get).ensureMovable token
  recipient.ensureNonZero "to"
  c.move token sender recipient amount

/-- Move the owner's tokens with the spender's allowance. -/
def transferFrom (token spender owner recipient : Address) (amount : Amount) :
    Action Bank Unit := do
  let b ← get
  b.ensureMovable token
  recipient.ensureNonZero "to"
  let allowed := b.allowance token owner spender
  if allowed < amount then
    throw (.transferFailed token s!"allowance {allowed} below {amount}")
  c.move token owner recipient amount
  let rest ← c.minus allowed amount
  Bank.approve token owner spender rest

/-- Destroy tokens of an account. -/
def burn (token account : Address) (amount : Amount) : Action Bank Unit := do
  let b ← get
  b.ensureMovable token
  let available := b.balance token account
  if available < amount then
    throw (.transferFailed token s!"balance {available} below {amount}")
  let rest ← c.minus available amount
  Bank.putBalance token account rest
  let supply ← c.subtract (b.totalSupply token) amount
  Bank.putSupply token supply

/-! ### Debts -/

/-- Reduce the debt of a user. -/
def reduce (user : Address) (amount : Amount) : Action Ledger Unit := do
  let l ← get
  if l.rejecting then throw (.ledger "debt reductions rejected")
  let debt := l.debt user
  if debt < amount then
    throw (.ledger s!"reduction {amount} exceeds debt {debt} of {user}")
  let rest ← c.minus debt amount
  Ledger.setDebt user rest

/-- Charge an amount to reserves and then to suppliers. -/
def absorb (amount : Amount) : Action Ledger Unit := do
  let l ← get
  let fromReserves := min amount l.reserves
  let remainder ← c.minus amount fromReserves
  if l.supplied < remainder then
    throw (.ledger
      s!"bad debt {amount} exceeds reserves {l.reserves} and supply {l.supplied}")
  let reserves ← c.minus l.reserves fromReserves
  let supplied ← c.minus l.supplied remainder
  set { l with reserves := reserves, supplied := supplied }
  let haircut ← l.haircut.add remainder
  modify fun l => { l with haircut := haircut }

/-- Reduce a debt and charge it to reserves and suppliers. -/
def writeOff (borrower : Address) (amount : Amount) : Action Ledger Unit := do
  c.reduce borrower amount
  c.absorb amount

/-- Drop the record of a borrower, which has to be positive; answers with its amount. -/
def clear (borrower : Address) : Action BadDebt Amount := do
  let b ← get
  let recorded := b.of borrower
  if recorded = 0 then throw (.noBadDebt borrower)
  let total ← c.subtract b.total recorded
  set (BadDebt.mk total (b.records.erase borrower))
  return recorded

/-! ### Quotes -/

/-- Collateral units owed for a repayment. -/
def collateralFor (repay : Amount) (penalty : UInt64) (price : Amount) (decimals : UInt8) :
    Except Error Amount := do
  let denominator ← Amount.narrow (Amount.whole.val * price.val) s!"{Amount.whole} * {price}"
  let penalized ← c.penalize penalty
  let unit ← Amount.powTen decimals
  repay.mulMulDiv penalized unit denominator

/-- The repayment that a seizure of this dollar value justifies. -/
def repaymentFor (value : Amount) (penalty : UInt64) : Except Error Amount := do
  let penalized ← c.penalize penalty
  value.mulDiv Amount.whole penalized

/-- The quote for an offer, when the deposit is known to be too small. -/
def cappedQuote (offer value deposit : Amount) (penalty : UInt64) : Except Error Quote := do
  let repay := min (← c.repaymentFor value penalty) offer
  let shortfall ← c.minus offer repay
  return ⟨repay, deposit, shortfall, true⟩

/-- What an offered repayment would seize. -/
def quote (v : Vault) (o : Oracle) (b : Bank) (borrower token : Address) (offer : Amount) :
    Except Error Quote := do
  match v.added? token with
  | none => throw (.tokenNotSupported token)
  | some config =>
    let penalty := config.params.penalty
    let decimals ← b.decimalsOf token
    let price ← o.price .bypassing token
    if price = 0 then throw (.invalidPrice token)
    let wanted ← c.collateralFor offer penalty price decimals
    let deposit := v.depositOf borrower token
    if wanted ≤ deposit then return ⟨offer, wanted, 0, false⟩
    let value ← o.value .bypassing token deposit
    c.cappedQuote offer value deposit penalty

/-! ### Collateral -/

/-- Take from a deposit. -/
def debit (user token : Address) (amount : Amount) : Action Vault Vault.Receipt := do
  let v ← get
  let available := v.depositOf user token
  if available < amount then throw (.insufficientDeposit amount available)
  let before := v.total token
  let total ← c.subtract before amount
  let rest ← c.minus available amount
  set (v.putDeposit user token rest total)
  return ⟨user, token, available, before⟩

open Protocol

/-- Pull tokens from a funder and book what arrived for a user. -/
def pull (funder user token : Address) (amount : Amount) : Action Protocol Amount := do
  if amount = 0 then throw .zeroAmount
  let p ← get
  p.vault.ensureEnabled token
  let account := p.vault.address
  onBank (c.transferFrom token account funder account amount)
  let received ← c.subtract ((← get).bank.balance token account) (p.bank.balance token account)
  if received = 0 then throw .zeroAmount
  onVault (Vault.credit user token received)
  return received

/-- Deposit the caller's tokens; answers with what arrived. -/
def deposit (ctx : Context) (token : Address) (amount : Amount) : Action Protocol Amount :=
  vaultCall do
    (← get).vault.ensureRunning
    let received ← c.pull ctx.caller ctx.caller token amount
    onVault (Vault.tell ctx.now (.deposited ctx.caller token received))
    return received

/-- Deposit the caller's tokens for a user; answers with what arrived. -/
def depositFor (ctx : Context) (user token : Address) (amount : Amount) :
    Action Protocol Amount :=
  vaultCall do
    let p ← get
    p.vault.ensureRunning
    p.vault.access.ensure .leverageVault ctx.caller
    user.ensureNonZero "user"
    let received ← c.pull ctx.caller user token amount
    onVault (Vault.tell ctx.now (.depositedFor ctx.caller user token received))
    return received

/-- Send tokens of the vault after a debit, and undo the debit if that fails. -/
def send (receipt : Vault.Receipt) (recipient : Address) (amount : Amount)
    (check : Action Protocol Unit) : Action Protocol Unit :=
  Action.undoing (fun p => { p with vault := p.vault.undo receipt }) do
    check
    onBank (c.transfer receipt.token (← get).vault.address recipient amount)

/-- Release collateral to its user; only the borrow module may call. -/
def withdraw (ctx : Context) (user token : Address) (amount : Amount) : Action Protocol Unit :=
  vaultCall do
    if ctx.caller ≠ (← get).vault.borrowModule then
      throw (.unauthorized s!"{ctx.caller} is not the borrow module")
    if amount = 0 then throw .zeroAmount
    let receipt ← onVault (c.debit user token amount)
    c.send receipt user amount (pure ())
    onVault (Vault.tell ctx.now (.withdrawn user token amount))

/-- Release a user's collateral to a liquidator. -/
def seize (ctx : Context) (user token : Address) (amount : Amount) (liquidator : Address) :
    Action Protocol Unit :=
  vaultCall do
    (← get).vault.access.ensure .liquidation ctx.caller
    liquidator.ensureNonZero "liquidator"
    if amount = 0 then throw .zeroAmount
    let receipt ← onVault (c.debit user token amount)
    c.send receipt liquidator amount (pure ())
    onVault (Vault.tell ctx.now (.seized user token amount liquidator))

/-- Release a user's collateral on the integrator's path. -/
def withdrawFor (ctx : Context) (user token : Address) (amount : Amount) (recipient : Address)
    (skipCheck : Bool) : Action Protocol Unit :=
  vaultCall do
    let p ← get
    p.vault.ensureRunning
    p.vault.access.ensure .leverageVault ctx.caller
    if amount = 0 then throw .zeroAmount
    recipient.ensureNonZero "recipient"
    if skipCheck ∧ recipient ≠ ctx.caller ∧ recipient ≠ user then
      throw (.invalidRecipient recipient)
    let receipt ← onVault (c.debit user token amount)
    c.send receipt recipient amount do
      unless skipCheck do checkMargin (← get) user
    onVault (Vault.tell ctx.now (.withdrawnFor ctx.caller user token amount recipient skipCheck))

/-! ### Liquidations -/

/-- Pull and burn the repayment, seize the collateral, reduce the debt. -/
def settle (ctx : Context) (borrower token : Address) (quote : Quote) : Action Protocol Unit := do
  let engine := (← get).engine
  onBank (c.transferFrom engine.debtToken engine.address ctx.caller engine.address quote.repay)
  onBank (c.burn engine.debtToken engine.address quote.repay)
  c.seize ⟨engine.address, ctx.now⟩ borrower token quote.seize ctx.caller
  onLedger (c.reduce borrower quote.repay)

/-- Repay up to an amount of a borrower's debt for collateral in a token. -/
def liquidate (ctx : Context) (borrower token : Address) (offer : Amount) :
    Action Protocol Outcome :=
  engineCall do
    let p ← get
    p.engine.ensureRunning
    checkOffer ctx.caller borrower offer
    let health ← p.health borrower
    if parityBps ≤ health then throw (.positionHealthy health)
    let limit ← p.engine.repayLimit (p.ledger.debt borrower) health
    let quote ← c.quote p.vault p.oracle p.bank borrower token (min offer limit)
    if quote.seize = 0 ∨ quote.repay = 0 then throw .nothingToSeize
    Action.orRestore unsettle (c.settle ctx borrower token quote)
    recordShortfall ctx borrower quote.shortfall
    onEngine (Engine.count quote.repay quote.capped)
    onEngine (Engine.tell ctx.now
      (.liquidated borrower ctx.caller token quote.repay quote.seize))
    return ⟨borrower, ctx.caller, token, health, quote.repay, quote.seize, quote.shortfall⟩

/-- Drop the record of a borrower, count what of it is written off, and tell. -/
def forgive (ctx : Context) (borrower : Address) (recorded absorbed : Amount) :
    Action Protocol Amount := do
  discard (onEngine (Engine.onBadDebt (c.clear borrower)))
  let sum ← (← get).engine.statistics.socialized.add absorbed
  onEngine do
    modify fun e => { e with statistics := { e.statistics with socialized := sum } }
    Engine.tell ctx.now (.badDebtSocialized borrower recorded absorbed)
  return absorbed

/-- Write off the bad debt recorded against a borrower; answers with the amount written off. -/
def socialize (ctx : Context) (borrower : Address) : Action Protocol Amount :=
  engineCall do
    let p ← get
    p.engine.access.ensure .governance ctx.caller
    let recorded := p.engine.badDebt.of borrower
    if recorded = 0 then throw (.noBadDebt borrower)
    let absorbed := min recorded (p.ledger.debt borrower)
    if 0 < absorbed then
      onLedger (Action.orRestore (fun before _ => before) (c.writeOff borrower absorbed))
    c.forgive ctx borrower recorded absorbed

/-! ### Calls -/

/-- Perform a call on the components; administration computes nothing. -/
def perform (ctx : Context) : Call → Action Protocol Reply
  | .deposit token amount => return .amount (← c.deposit ctx token amount)
  | .depositFor user token amount => return .amount (← c.depositFor ctx user token amount)
  | .withdraw user token amount => do
    c.withdraw ctx user token amount
    return .done
  | .seize user token amount liquidator => do
    c.seize ctx user token amount liquidator
    return .done
  | .withdrawFor user token amount recipient skipCheck => do
    c.withdrawFor ctx user token amount recipient skipCheck
    return .done
  | .liquidate borrower token offer => return .outcome (← c.liquidate ctx borrower token offer)
  | .socialize borrower => return .amount (← c.socialize ctx borrower)
  | call => Protocol.perform ctx call

/-- Submit a call of an account as a transaction. -/
def submit (caller : Address) (call : Call) : Action Protocol Reply :=
  atomic do c.perform ⟨caller, (← get).clock⟩ call

/-- With the plain calculator a call is the call. -/
theorem plain_perform (ctx : Context) (call : Call) :
    plain.perform ctx call = Protocol.perform ctx call := by
  cases call with
  | deposit | depositFor | withdraw | seize | withdrawFor | liquidate | socialize => rfl
  | _ => rfl

theorem perform_of_administers {c : Calculator} {ctx : Context} {call : Call}
    (hcall : call.Administers) : c.perform ctx call = Protocol.perform ctx call := by
  cases call with
  | deposit | depositFor | withdraw | seize | withdrawFor | liquidate | socialize => cases hcall
  | _ => rfl

/-! ### What a call is refused by

The kind of errors is a parameter, because the plain calculator and the watchful one refuse with
different ones.  All that is asked of the state is that no component is entered.
-/

/-- The calculator refuses with errors of a kind that takes in the ordinary ones. -/
structure RefusesBy (c : Calculator) (kind : Error → Prop) : Prop where
  ordinary : ∀ e, e.Ordinary → kind e
  minus : ∀ a b, Check.RefusedBy kind (c.minus a b)
  subtract : ∀ a b, Check.RefusedBy kind (c.subtract a b)
  penalize : ∀ penalty, Check.RefusedBy kind (c.penalize penalty)

variable {c} {kind : Error → Prop}

namespace RefusesBy

theorem check {α : Type} {x : Except Error α} (h : c.RefusesBy kind)
    (hx : Check.RefusedBy Error.Ordinary x) : Check.RefusedBy kind x :=
  hx.imp h.ordinary

theorem reading {α : Type} {x : Except Error α} (h : c.RefusesBy kind)
    (hx : Check.RefusedBy Error.Reading x) : Check.RefusedBy kind x :=
  h.check (hx.imp fun _ => Error.Reading.ordinary)

end RefusesBy

section

variable {token account sender owner spender recipient user borrower liquidator funder : Address}
  {amount offer value deposit repay price : Amount} {penalty : UInt64} {decimals : UInt8}
  {ctx : Context} {b : Bank} {l : Ledger} {d : BadDebt} {v : Vault} {o : Oracle} {p : Protocol}

variable (h : c.RefusesBy kind)

include h

theorem move_refusedBy : (c.move token sender recipient amount).RefusedBy kind b := by
  refine refusedBy_get (refusedBy_refuseIf (h.ordinary _ nofun) fun _ => ?_)
  refine refusedBy_check (h.reading Amount.share_refusedBy) fun fee _ => ?_
  refine refusedBy_check (h.subtract _ _) fun received _ => ?_
  refine refusedBy_check (h.minus _ _) fun rest _ => ?_
  refine refusedBy_bind answers_modify.refusedBy fun _ _ _ => refusedBy_get ?_
  refine refusedBy_check (h.reading Amount.add_refusedBy) fun balance _ => ?_
  refine refusedBy_bind answers_modify.refusedBy fun _ _ _ => ?_
  exact (answers_ite (fun _ => answers_modify) fun _ => answers_pure).refusedBy

theorem transfer_refusedBy : (c.transfer token sender recipient amount).RefusedBy kind b :=
  refusedBy_get (refusedBy_check (h.check Bank.ensureMovable_ordinary) fun _ _ =>
    refusedBy_check (h.check Address.ensureNonZero_ordinary) fun _ _ => move_refusedBy h)

theorem transferFrom_refusedBy :
    (c.transferFrom token spender owner recipient amount).RefusedBy kind b := by
  refine refusedBy_get (refusedBy_check (h.check Bank.ensureMovable_ordinary) fun _ _ => ?_)
  refine refusedBy_check (h.check Address.ensureNonZero_ordinary) fun _ _ => ?_
  refine refusedBy_refuseIf (h.ordinary _ nofun) fun _ => ?_
  refine refusedBy_bind (move_refusedBy h) fun _ _ _ => ?_
  exact refusedBy_check (h.minus _ _) fun rest _ => answers_modify.refusedBy

theorem burn_refusedBy : (c.burn token account amount).RefusedBy kind b := by
  refine refusedBy_get (refusedBy_check (h.check Bank.ensureMovable_ordinary) fun _ _ => ?_)
  refine refusedBy_refuseIf (h.ordinary _ nofun) fun _ => ?_
  refine refusedBy_check (h.minus _ _) fun rest _ => ?_
  refine refusedBy_bind answers_modify.refusedBy fun _ _ _ => ?_
  exact refusedBy_check (h.subtract _ _) fun supply _ => answers_modify.refusedBy

theorem reduce_refusedBy : (c.reduce user amount).RefusedBy kind l := by
  refine refusedBy_get (refusedBy_refuseIf (h.ordinary _ nofun) fun _ => ?_)
  refine refusedBy_refuseIf (h.ordinary _ nofun) fun _ => ?_
  exact refusedBy_check (h.minus _ _) fun rest _ => answers_modify.refusedBy

theorem absorb_refusedBy : (c.absorb amount).RefusedBy kind l := by
  refine refusedBy_get (refusedBy_check (h.minus _ _) fun remainder _ => ?_)
  refine refusedBy_refuseIf (h.ordinary _ nofun) fun _ => ?_
  refine refusedBy_check (h.minus _ _) fun reserves _ => ?_
  refine refusedBy_check (h.minus _ _) fun supplied _ => ?_
  refine refusedBy_bind answers_set.refusedBy fun _ _ _ => ?_
  exact refusedBy_check (h.reading Amount.add_refusedBy) fun haircut _ => answers_modify.refusedBy

theorem writeOff_refusedBy : (c.writeOff borrower amount).RefusedBy kind l :=
  refusedBy_bind (reduce_refusedBy h) fun _ _ _ => absorb_refusedBy h

theorem clear_refusedBy : (c.clear borrower).RefusedBy kind d := by
  refine refusedBy_get (refusedBy_refuseIf (h.ordinary _ nofun) fun _ => ?_)
  refine refusedBy_check (h.subtract _ _) fun total _ => ?_
  exact (answers_bind answers_set fun _ _ _ => answers_pure).refusedBy

theorem collateralFor_refusedBy :
    Check.RefusedBy kind (c.collateralFor repay penalty price decimals) := by
  refine Check.refusedBy_bind (h.reading Amount.narrow_refusedBy) fun denominator _ => ?_
  refine Check.refusedBy_bind (h.penalize _) fun penalized _ => ?_
  refine Check.refusedBy_bind (h.reading Amount.narrow_refusedBy) fun unit _ => ?_
  exact h.check Amount.mulMulDiv_ordinary

theorem cappedQuote_refusedBy :
    Check.RefusedBy kind (c.cappedQuote offer value deposit penalty) := by
  refine Check.refusedBy_bind ?_ fun repay _ => ?_
  · exact Check.refusedBy_bind (h.penalize _) fun penalized _ => h.check Amount.mulDiv_ordinary
  · exact Check.refusedBy_bind (h.minus _ _) fun shortfall _ => Check.refusedBy_ok

theorem quote_refusedBy : Check.RefusedBy kind (c.quote v o b borrower token offer) := by
  unfold quote
  split
  next => exact Check.refusedBy_error (h.ordinary _ nofun)
  next config _ =>
    refine Check.refusedBy_bind (h.check Bank.decimalsOf_ordinary) fun decimals _ => ?_
    refine Check.refusedBy_bind (h.reading Oracle.price_refusedBy) fun price _ => ?_
    refine Check.refusedBy_refuseIf (h.ordinary _ nofun) fun _ => ?_
    refine Check.refusedBy_bind (collateralFor_refusedBy h) fun wanted _ => ?_
    refine Check.refusedBy_ite (fun _ => Check.refusedBy_ok) fun _ => ?_
    refine Check.refusedBy_bind (h.reading Oracle.value_refusedBy) fun value _ => ?_
    exact cappedQuote_refusedBy h

theorem debit_refusedBy : (c.debit user token amount).RefusedBy kind v := by
  refine refusedBy_get (refusedBy_refuseIf (h.ordinary _ nofun) fun _ => ?_)
  refine refusedBy_check (h.subtract _ _) fun total _ => ?_
  refine refusedBy_check (h.minus _ _) fun rest _ => ?_
  exact (answers_bind answers_set fun _ _ _ => answers_pure).refusedBy

theorem credit_refusedBy : (Vault.credit user token amount).RefusedBy kind v := by
  refine refusedBy_get (refusedBy_check (h.reading Amount.add_refusedBy) fun deposit _ => ?_)
  exact refusedBy_check (h.reading Amount.add_refusedBy) fun total _ => answers_set.refusedBy

open Protocol

theorem pull_refusedBy : (c.pull funder user token amount).RefusedBy kind p := by
  unfold Calculator.pull
  refine refusedBy_refuseIf (h.ordinary _ nofun) fun _ => refusedBy_get ?_
  refine refusedBy_check (h.check Vault.ensureEnabled_ordinary) fun _ _ => ?_
  refine refusedBy_bind (refusedBy_on (transferFrom_refusedBy h)) fun _ _ _ => refusedBy_get ?_
  refine refusedBy_check (h.subtract _ _) fun received _ => ?_
  refine refusedBy_refuseIf (h.ordinary _ nofun) fun _ => ?_
  exact refusedBy_bind (refusedBy_on (credit_refusedBy h)) fun _ _ _ => answers_pure.refusedBy

/-- Telling of a deposit is not refused. -/
private theorem pull_told_refusedBy {now : Timestamp} {told : Amount → Event} :
    (do
      let received ← c.pull funder user token amount
      onVault (Vault.tell now (told received))
      return received : Action Protocol Amount).RefusedBy kind p :=
  refusedBy_bind (pull_refusedBy h) fun _ _ _ =>
    (answers_bind (answers_on answers_modify) fun _ _ _ => answers_pure).refusedBy

theorem deposit_refusedBy (hfree : p.vault.guard = .free) :
    (c.deposit ctx token amount).RefusedBy kind p :=
  refusedBy_hold hfree (refusedBy_get
    (refusedBy_check (h.check Vault.ensureRunning_ordinary) fun _ _ => pull_told_refusedBy h))

theorem depositFor_refusedBy (hfree : p.vault.guard = .free) :
    (c.depositFor ctx user token amount).RefusedBy kind p := by
  refine refusedBy_hold hfree (refusedBy_get ?_)
  refine refusedBy_check (h.check Vault.ensureRunning_ordinary) fun _ _ => ?_
  refine refusedBy_check (h.check Access.ensure_ordinary) fun _ _ => ?_
  exact refusedBy_check (h.check Address.ensureNonZero_ordinary) fun _ _ => pull_told_refusedBy h

/-- A debit that is sent and told. -/
private theorem release_refusedBy {check : Action Protocol Unit} {now : Timestamp} {told : Event}
    (hcheck : ∀ p : Protocol, check.RefusedBy kind p) :
    (do
      let receipt ← onVault (c.debit user token amount)
      c.send receipt recipient amount check
      onVault (Vault.tell now told) : Action Protocol Unit).RefusedBy kind p := by
  refine refusedBy_bind (refusedBy_on (debit_refusedBy h)) fun receipt s _ => ?_
  refine refusedBy_bind ?_ fun _ _ _ => (answers_on answers_modify).refusedBy
  refine refusedBy_undoing (refusedBy_bind (hcheck s) fun _ _ _ => refusedBy_get ?_)
  exact refusedBy_on (transfer_refusedBy h)

theorem withdraw_refusedBy (hfree : p.vault.guard = .free) :
    (c.withdraw ctx user token amount).RefusedBy kind p := by
  refine refusedBy_hold hfree (refusedBy_get ?_)
  refine refusedBy_refuseIf (h.ordinary _ nofun) fun _ => ?_
  refine refusedBy_refuseIf (h.ordinary _ nofun) fun _ => ?_
  exact release_refusedBy h fun _ => answers_pure.refusedBy

theorem seize_refusedBy (hfree : p.vault.guard = .free) :
    (c.seize ctx user token amount liquidator).RefusedBy kind p := by
  refine refusedBy_hold hfree (refusedBy_get ?_)
  refine refusedBy_check (h.check Access.ensure_ordinary) fun _ _ => ?_
  refine refusedBy_check (h.check Address.ensureNonZero_ordinary) fun _ _ => ?_
  refine refusedBy_refuseIf (h.ordinary _ nofun) fun _ => ?_
  exact release_refusedBy h fun _ => answers_pure.refusedBy

theorem checkMargin_refusedBy : Check.RefusedBy kind (checkMargin p user) := by
  refine Check.refusedBy_ite (fun _ => Check.refusedBy_ok) fun _ => ?_
  split
  next => exact Check.refusedBy_error (h.ordinary _ nofun)
  next =>
    exact Check.refusedBy_ite (fun _ => Check.refusedBy_error (h.ordinary _ nofun))
      fun _ => Check.refusedBy_ok

theorem withdrawFor_refusedBy {skipCheck : Bool} (hfree : p.vault.guard = .free) :
    (c.withdrawFor ctx user token amount recipient skipCheck).RefusedBy kind p := by
  refine refusedBy_hold hfree (refusedBy_get ?_)
  refine refusedBy_check (h.check Vault.ensureRunning_ordinary) fun _ _ => ?_
  refine refusedBy_check (h.check Access.ensure_ordinary) fun _ _ => ?_
  refine refusedBy_refuseIf (h.ordinary _ nofun) fun _ => ?_
  refine refusedBy_check (h.check Address.ensureNonZero_ordinary) fun _ _ => ?_
  refine refusedBy_refuseIf (h.ordinary _ nofun) fun _ => release_refusedBy h fun q => ?_
  refine refusedBy_ite (fun _ => answers_pure.refusedBy) fun _ => refusedBy_get ?_
  intro e t hrefused
  exact checkMargin_refusedBy h e (check_eq_error.mp hrefused).1

/-- The bank is asked without the vault, which is as free as before. -/
theorem settle_refusedBy {quote : Quote} (hfree : p.vault.guard = .free) :
    (c.settle ctx borrower token quote).RefusedBy kind p := by
  refine refusedBy_get (refusedBy_bind (refusedBy_on (transferFrom_refusedBy h)) fun _ s hs => ?_)
  obtain ⟨pulled, -, rfl⟩ := on_eq_ok.mp hs
  refine refusedBy_bind (refusedBy_on (burn_refusedBy h)) fun _ s hs => ?_
  obtain ⟨burned, -, rfl⟩ := on_eq_ok.mp hs
  exact refusedBy_bind (seize_refusedBy h hfree) fun _ _ _ => refusedBy_on (reduce_refusedBy h)

theorem checkOffer_refusedBy : Check.RefusedBy kind (checkOffer liquidator borrower offer) := by
  refine Check.refusedBy_ite (fun _ => Check.refusedBy_error (h.ordinary _ nofun)) fun _ => ?_
  refine Check.refusedBy_ite (fun _ => Check.refusedBy_error (h.ordinary _ nofun)) fun _ => ?_
  exact Check.refusedBy_ite (fun _ => Check.refusedBy_error (h.ordinary _ nofun))
    fun _ => Check.refusedBy_ok

theorem recordShortfall_refusedBy : (recordShortfall ctx borrower amount).RefusedBy kind p := by
  refine refusedBy_ite (fun _ => ?_) fun _ => answers_pure.refusedBy
  refine refusedBy_bind (refusedBy_on (refusedBy_on (refusedBy_get ?_))) fun _ _ _ =>
    (answers_on answers_modify).refusedBy
  refine refusedBy_check (h.reading Amount.add_refusedBy) fun total _ => ?_
  refine refusedBy_check (h.reading Amount.add_refusedBy) fun own _ => ?_
  exact (answers_bind answers_set fun _ _ _ => answers_pure).refusedBy

theorem count_refusedBy {capped : Bool} {e : Engine} :
    (Engine.count amount capped).RefusedBy kind e :=
  refusedBy_bind answers_modify.refusedBy fun _ _ _ => refusedBy_get
    (refusedBy_check (h.reading Amount.add_refusedBy) fun _ _ => answers_modify.refusedBy)

theorem liquidate_refusedBy (hidle : Idle p) :
    (c.liquidate ctx borrower token offer).RefusedBy kind p := by
  refine refusedBy_hold hidle.engine (refusedBy_get ?_)
  refine refusedBy_check (h.check Engine.ensureRunning_ordinary) fun _ _ => ?_
  refine refusedBy_check (checkOffer_refusedBy h) fun _ _ => ?_
  refine refusedBy_check (h.reading Health.factor_refusedBy) fun health _ => ?_
  refine refusedBy_refuseIf (h.ordinary _ nofun) fun _ => ?_
  refine refusedBy_check (h.reading Engine.repayLimit_refusedBy) fun limit _ => ?_
  refine refusedBy_check (quote_refusedBy h) fun quote _ => ?_
  refine refusedBy_refuseIf (h.ordinary _ nofun) fun _ => ?_
  refine refusedBy_bind (refusedBy_orRestore (settle_refusedBy h hidle.vault)) fun _ _ _ => ?_
  refine refusedBy_bind (recordShortfall_refusedBy h) fun _ _ _ => ?_
  refine refusedBy_bind (refusedBy_on (count_refusedBy h)) fun _ _ _ => ?_
  exact (answers_bind (answers_on answers_modify) fun _ _ _ => answers_pure).refusedBy

theorem forgive_refusedBy {recorded absorbed : Amount} :
    (c.forgive ctx borrower recorded absorbed).RefusedBy kind p := by
  refine refusedBy_bind (refusedBy_discard (refusedBy_on (refusedBy_on (clear_refusedBy h))))
    fun _ _ _ => refusedBy_get ?_
  refine refusedBy_check (h.reading Amount.add_refusedBy) fun sum _ => ?_
  refine refusedBy_bind (refusedBy_on ?_) fun _ _ _ => answers_pure.refusedBy
  exact (answers_bind answers_modify fun _ _ _ => answers_modify).refusedBy

theorem socialize_refusedBy (hidle : Idle p) : (c.socialize ctx borrower).RefusedBy kind p := by
  refine refusedBy_hold hidle.engine (refusedBy_get ?_)
  refine refusedBy_check (h.check Access.ensure_ordinary) fun _ _ => ?_
  refine refusedBy_refuseIf (h.ordinary _ nofun) fun _ => ?_
  refine refusedBy_ite (fun _ => ?_) fun _ => forgive_refusedBy h
  refine refusedBy_bind (refusedBy_on ?_) fun _ _ _ => forgive_refusedBy h
  exact refusedBy_orRestore (writeOff_refusedBy h)

/-- **Between calls a call is refused with ordinary errors and those of the calculator.** -/
theorem perform_refusedBy (hidle : Idle p) {call : Call} :
    (c.perform ctx call).RefusedBy kind p := by
  have hreply {α : Type} {x : Action Protocol α} {f : α → Reply} (hx : x.RefusedBy kind p) :
      (x >>= fun a => pure (f a)).RefusedBy kind p :=
    refusedBy_bind hx fun _ _ _ => answers_pure.refusedBy
  by_cases hcall : call.Administers
  · rw [perform_of_administers hcall]
    exact (perform_administers_ordinary hidle hcall).imp h.ordinary
  cases call with
  | deposit => exact hreply (deposit_refusedBy h hidle.vault)
  | depositFor => exact hreply (depositFor_refusedBy h hidle.vault)
  | withdraw => exact hreply (withdraw_refusedBy h hidle.vault)
  | seize => exact hreply (seize_refusedBy h hidle.vault)
  | withdrawFor => exact hreply (withdrawFor_refusedBy h hidle.vault)
  | liquidate => exact hreply (liquidate_refusedBy h hidle)
  | socialize => exact hreply (socialize_refusedBy h hidle)
  | _ => exact absurd trivial hcall

theorem submit_refusedBy (hidle : Idle p) {caller : Address} {call : Call} :
    (c.submit caller call).RefusedBy kind p :=
  refusedBy_orRestore (refusedBy_get (perform_refusedBy h hidle))

end

end Calculator

end Custody
