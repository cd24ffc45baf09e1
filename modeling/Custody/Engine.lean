/-
The engine that liquidates positions.

A position below parity may be liquidated.  One liquidation repays at most a share of
the debt, or all of it when the health factor is very low.  The collateral seized is
worth the repayment and the token's penalty; if the deposit does not cover that, the
whole deposit is seized, the repayment shrinks to what it justifies, and the rest of
the offered repayment is a shortfall.
-/
import Custody.BadDebt
import Custody.Bank
import Custody.Vault

namespace Custody

/-- What a repayment would seize. -/
structure Quote where
  /-- What the liquidator repays. -/
  repay : Amount
  /-- Collateral that goes to the liquidator. -/
  seize : Amount
  /-- The part of the offered repayment that no collateral justifies. -/
  shortfall : Amount
  /-- Whether the deposit was too small. -/
  capped : Bool
deriving DecidableEq

/-- What a liquidation did. -/
structure Outcome where
  borrower : Address
  liquidator : Address
  token : Address
  /-- The health factor before. -/
  healthBefore : UInt64
  debtRepaid : Amount
  collateralSeized : Amount
  badDebtRecorded : Amount
deriving DecidableEq

/-- Counts and sums over all liquidations. -/
structure Statistics where
  liquidations : UInt64
  debtRepaid : Amount
  /-- Liquidations in which the deposit was too small. -/
  capped : UInt64
  /-- Bad debt written off. -/
  socialized : Amount
deriving DecidableEq

/-- The state of liquidations. -/
structure Engine where
  /-- The account that receives repayments and burns them. -/
  address : Address
  debtToken : Address
  access : Access
  params : LiquidationParams
  badDebt : BadDebt
  statistics : Statistics
  paused : Bool
  events : EventLog
  guard : Guard

namespace Engine

/-- An engine without history. -/
def start (address debtToken admin : Address) (params : LiquidationParams) :
    Except Error Engine := do
  address.ensureNonZero "engine"
  debtToken.ensureNonZero "debt_token"
  params.validate
  return {
    address := address
    debtToken := debtToken
    access := ← Access.start admin
    params := params
    badDebt := .empty
    statistics := ⟨0, 0, 0, 0⟩
    paused := false
    events := .standard
    guard := .free }

/-- A copy of the engine, with a guard of its own. -/
def copy (e : Engine) : Engine := { e with guard := .free }

/-! ### Sizing -/

/-- Refuse while paused. -/
def ensureRunning (e : Engine) : Except Error Unit :=
  if e.paused then .error .paused else .ok ()

/-- The most that one liquidation may repay of a debt at a health factor. -/
def repayLimit (e : Engine) (debt : Amount) (health : UInt64) : Except Error Amount :=
  if health < e.params.fullThreshold then .ok debt else debt.share e.params.closeFactor

/-- The quote for an offer, when the deposit is known to be too small. -/
def cappedQuote (offer value deposit : Amount) (penalty : UInt64) : Except Error Quote := do
  let repay := min (← value.repaymentFor penalty) offer
  return ⟨repay, deposit, offer - repay, true⟩

/-- What an offered repayment would seize. -/
def quote (v : Vault) (o : Oracle) (b : Bank) (borrower token : Address) (offer : Amount) :
    Except Error Quote := do
  match v.added? token with
  | none => throw (.tokenNotSupported token)
  | some config =>
    let penalty := config.params.penalty
    let decimals ← b.decimalsOf token
    let price ← o.price .bypassing token
    if price = 0 then throw (.invalidPrice token)
    let wanted ← offer.collateralFor penalty price decimals
    let deposit := v.depositOf borrower token
    if wanted ≤ deposit then return ⟨offer, wanted, 0, false⟩
    let value ← o.value .bypassing token deposit
    cappedQuote offer value deposit penalty

/-- The health factor that decides about liquidation. -/
def health (v : Vault) (l : Ledger) (o : Oracle) (borrower : Address) : Except Error UInt64 :=
  Health.factor l o .bypassing v.view borrower

/-- Whether a borrower can be liquidated now. -/
def isLiquidatable (v : Vault) (l : Ledger) (o : Oracle) (borrower : Address) :
    Except Error Bool := do
  if l.debt borrower = 0 then return false
  return (← health v l o borrower) < parityBps

/-- The most that one liquidation of a borrower may repay now. -/
def maxRepayable (e : Engine) (v : Vault) (l : Ledger) (o : Oracle) (borrower : Address) :
    Except Error Amount := do
  let debt := l.debt borrower
  if debt = 0 then return 0
  let factor ← health v l o borrower
  if parityBps ≤ factor then return 0
  e.repayLimit debt factor

/-- Check that the total of bad debt is the sum of the records. -/
def verify (e : Engine) : Except Error Unit :=
  e.badDebt.verify

/-! ### Changes -/

/-- Tell what happened. -/
def tell (now : Timestamp) (event : Event) : Action Engine Unit :=
  modify fun e => { e with events := e.events.add now event }

/-- Run on the bad debt. -/
def onBadDebt {α : Type} : Action BadDebt α → Action Engine α :=
  Action.on badDebt fun b e => { e with badDebt := b }

/-- Write the sizing of liquidations. -/
def setParams (ctx : Context) (params : LiquidationParams) : Action Engine Unit := do
  modify fun e => { e with params := params }
  tell ctx.now (.liquidationParamsUpdated params.closeFactor params.fullThreshold)

/-- Set the share of a debt that one liquidation may repay. -/
def setCloseFactor (ctx : Context) (bps : UInt64) : Action Engine Unit := do
  let e ← get
  e.access.ensure .governance ctx.caller
  LiquidationParams.checkCloseFactor bps
  setParams ctx { e.params with closeFactor := bps }

/-- Set the health factor below which the whole debt may be repaid. -/
def setFullThreshold (ctx : Context) (bps : UInt64) : Action Engine Unit := do
  let e ← get
  e.access.ensure .governance ctx.caller
  LiquidationParams.checkFullThreshold bps
  setParams ctx { e.params with fullThreshold := bps }

/-- Run on the members of roles. -/
def onAccess {α : Type} : Action Access α → Action Engine α :=
  Action.on access fun a e => { e with access := a }

/-- Give a role to an account; an account that holds it already causes no event. -/
def grantRole (ctx : Context) (role : Role) (account : Address) : Action Engine Unit := do
  if ← onAccess (Access.grant ctx.caller role account) then
    tell ctx.now (.roleGranted role account)

/-- Take a role from an account; an account that lacks it causes no event. -/
def revokeRole (ctx : Context) (role : Role) (account : Address) : Action Engine Unit := do
  if ← onAccess (Access.revoke ctx.caller role account) then
    tell ctx.now (.roleRevoked role account)

/-- Write whether liquidations are paused. -/
def setPaused (paused : Bool) (ctx : Context) : Action Engine Unit := do
  modify fun e => { e with paused := paused }
  tell ctx.now (.pauseChanged paused ctx.caller)

/-- Stop liquidations. -/
def pause (ctx : Context) : Action Engine Unit := do
  (← get).access.ensure .pauser ctx.caller
  setPaused true ctx

/-- End a pause. -/
def unpause (ctx : Context) : Action Engine Unit := do
  (← get).access.ensure .admin ctx.caller
  setPaused false ctx

/-- Count a liquidation.  The count goes up before the sum of repayments is formed. -/
def count (repaid : Amount) (capped : Bool) : Action Engine Unit := do
  modify fun e =>
    { e with statistics := { e.statistics with liquidations := e.statistics.liquidations + 1 } }
  let sum ← (← get).statistics.debtRepaid.add repaid
  modify fun e =>
    let s := { e.statistics with debtRepaid := sum }
    { e with statistics := if capped then { s with capped := s.capped + 1 } else s }

end Engine

end Custody
