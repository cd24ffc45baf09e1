/-
A world with one borrower.

A scenario says what the borrower has deposited and owes and what a liquidator offers
to repay.  Its world is built by ordinary calls, and the liquidation is then run in it
or only previewed.
-/
import Custody.Protocol.Call
import Custody.Protocol.Environment
import Custody.Settings

namespace Custody

/-- One deposit, one debt and one offer. -/
structure Scenario where
  /-- Collateral deposited. -/
  deposit : Amount
  /-- Decimals of the collateral. -/
  decimals : UInt8
  /-- Price of one whole collateral token. -/
  price : Amount
  /-- Liquidation threshold of the collateral. -/
  threshold : UInt64
  /-- Liquidation penalty of the collateral. -/
  penalty : UInt64
  /-- What the borrower owes. -/
  debt : Amount
  /-- What the liquidator offers to repay. -/
  repay : Amount
deriving DecidableEq

/-- What a simulated liquidation did and left. -/
structure Simulation where
  timestamp : Timestamp
  outcome : Outcome
  healthAfter : UInt64
  remainingDebt : Amount
  remainingCollateral : Amount
  totalBadDebt : Amount
deriving DecidableEq

/-- What a liquidation would do. -/
structure Estimate where
  timestamp : Timestamp
  health : UInt64
  liquidatable : Bool
  maxRepayable : Amount
  quote : Quote
deriving DecidableEq

namespace Scenario

/-! ### Accounts -/

/-- Administers both components. -/
def admin : Address := .ofLabel "admin"

/-- Lists tokens. -/
def governance : Address := .ofLabel "governance"

/-- The borrow module. -/
def borrowModule : Address := .ofLabel "borrow-module"

/-- Owes the debt. -/
def borrower : Address := .ofLabel "borrower"

/-- Makes the offer. -/
def liquidator : Address := .ofLabel "liquidator"

/-- The collateral token. -/
def collateral : Address := .ofLabel "collateral"

/-- The debt token. -/
def debtToken : Address := .ofLabel "musd"

/-- The account of the vault. -/
def vaultAccount : Address := .ofLabel "vault"

/-- The account of the engine. -/
def engineAccount : Address := .ofLabel "liquidation-engine"

/-! ### The world -/

/-- The time in the world. -/
def startTime : Timestamp := 1700000000

/-- The risk parameters: the factor is five points below the threshold, but positive. -/
def collateralParams (s : Scenario) : CollateralParams where
  factor := if s.threshold ≤ 500 then 1 else s.threshold - 500
  threshold := s.threshold
  penalty := s.penalty

/-- The protocol before anything happened. -/
def start (sizing : LiquidationParams) : Except Error Protocol := do
  let vault ← Vault.start vaultAccount admin borrowModule
  let engine ← Engine.start engineAccount debtToken admin sizing
  return ⟨vault, engine, .empty, .empty, .empty, startTime⟩

/-- What happens before the calls. -/
def happenings (s : Scenario) : List Happening :=
  [.registerToken collateral s.decimals,
    .registerToken debtToken debtDecimals,
    .mint collateral borrower s.deposit,
    .approve collateral borrower vaultAccount s.deposit,
    .mint debtToken liquidator s.repay,
    .approve debtToken liquidator engineAccount s.repay,
    .setPrice collateral s.price s.decimals,
    .setDebt borrower s.debt]

/-- The calls that list the collateral and deposit it, with their callers. -/
def calls (s : Scenario) : List (Address × Call) :=
  [(admin, .grantVaultRole .governance governance),
    (admin, .grantVaultRole .liquidation engineAccount),
    (governance, .addCollateral collateral s.collateralParams)]
  ++ if 0 < s.deposit then [(borrower, .deposit collateral s.deposit)] else []

/-- Let things happen and submit the calls. -/
def prepare (s : Scenario) : Action Protocol Unit := do
  s.happenings.forM Protocol.happen
  s.calls.forM fun c => discard (Protocol.submit c.1 c.2)

/-- The answer of an action in the world of a scenario. -/
def inWorld {α : Type} (s : Scenario) (sizing : LiquidationParams) (x : Action Protocol α) :
    Except Error α := do
  let p ← start sizing
  match (do s.prepare; x : Action Protocol α) p with
  | .ok a _ => .ok a
  | .error e _ => .error e

/-! ### Liquidation -/

/-- Run the liquidation. -/
def simulate (s : Scenario) (sizing : LiquidationParams) : Except Error Simulation :=
  s.inWorld sizing do
    let outcome ←
      Protocol.atomic (Protocol.liquidate ⟨liquidator, startTime⟩ borrower collateral s.repay)
    let p ← get
    p.verify
    return {
      timestamp := p.clock
      outcome := outcome
      healthAfter := ← p.health borrower
      remainingDebt := p.ledger.debt borrower
      remainingCollateral := p.vault.depositOf borrower collateral
      totalBadDebt := p.engine.badDebt.total }

/-- Preview the liquidation. -/
def estimate (s : Scenario) (sizing : LiquidationParams) : Except Error Estimate :=
  s.inWorld sizing do
    let p ← get
    let quote ← p.quote borrower collateral s.repay
    return {
      timestamp := p.clock
      health := ← p.health borrower
      liquidatable := ← p.isLiquidatable borrower
      maxRepayable := ← p.maxRepayable borrower
      quote := quote }

end Scenario

end Custody
