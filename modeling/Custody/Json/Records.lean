/-
Roles, events and bad debt in JSON.
-/
import Custody.BadDebt
import Custody.Json.Decode

namespace Custody

open Json

/-! ### Roles and parameters -/

/-- The role with a stored name. -/
def Role.ofTag? (tag : String) : Option Role :=
  Role.all.find? fun r => r.tag = tag

/-- A role. -/
def Role.ofJson? (v : Json) : Option Role :=
  v.tag?.bind ofTag?

/-- Risk parameters. -/
def CollateralParams.ofJson? (v : Json) : Option CollateralParams := do
  match ← v.fields? ["collateral_factor_bps", "liquidation_threshold_bps",
      "liquidation_penalty_bps"] with
  | [factor, threshold, penalty] =>
    return ⟨← factor.toWord?, ← threshold.toWord?, ← penalty.toWord?⟩
  | _ => none

/-- The sizing of liquidations. -/
def LiquidationParams.ofJson? (v : Json) : Option LiquidationParams := do
  match ← v.fields? ["close_factor_bps", "full_liquidation_threshold_bps"] with
  | [closeFactor, fullThreshold] => return ⟨← closeFactor.toWord?, ← fullThreshold.toWord?⟩
  | _ => none

/-! ### Events -/

/-- Which delayed change an event is about. -/
def Knob.ofJson? (v : Json) : Option Knob := do
  match ← v.alternative? with
  | ("AddCollateral", some token) => return .addCollateral (← token.toAddress?)
  | ("UpdateCollateral", some token) => return .updateCollateral (← token.toAddress?)
  | ("BorrowModule", none) | ("BorrowModule", some .null) => return .borrowModule
  | _ => none

/-- The event of a kind with these fields. -/
def Event.ofFields? (kind : String) (v : Json) : Option Event := do
  match kind with
  | "Deposited" =>
    let [user, token, amount] ← v.fields? ["user", "token", "amount"] | none
    return .deposited (← user.toAddress?) (← token.toAddress?) (← amount.toAmount?)
  | "DepositedFor" =>
    let [funder, user, token, amount] ← v.fields? ["funder", "user", "token", "amount"] | none
    return .depositedFor (← funder.toAddress?) (← user.toAddress?) (← token.toAddress?)
      (← amount.toAmount?)
  | "Withdrawn" =>
    let [user, token, amount] ← v.fields? ["user", "token", "amount"] | none
    return .withdrawn (← user.toAddress?) (← token.toAddress?) (← amount.toAmount?)
  | "WithdrawnFor" =>
    let [operator, user, token, amount, recipient, skipped] ← v.fields?
      ["operator", "user", "token", "amount", "recipient", "health_check_skipped"] | none
    return .withdrawnFor (← operator.toAddress?) (← user.toAddress?) (← token.toAddress?)
      (← amount.toAmount?) (← recipient.toAddress?) (← skipped.toBool?)
  | "Seized" =>
    let [user, token, amount, liquidator] ← v.fields?
      ["user", "token", "amount", "liquidator"] | none
    return .seized (← user.toAddress?) (← token.toAddress?) (← amount.toAmount?)
      (← liquidator.toAddress?)
  | "Liquidated" =>
    let [borrower, liquidator, token, repaid, collateral] ← v.fields?
      ["borrower", "liquidator", "token", "debt_repaid", "collateral_seized"] | none
    return .liquidated (← borrower.toAddress?) (← liquidator.toAddress?) (← token.toAddress?)
      (← repaid.toAmount?) (← collateral.toAmount?)
  | "BadDebtRecorded" =>
    let [borrower, amount, total] ← v.fields? ["borrower", "amount", "total_bad_debt"] | none
    return .badDebtRecorded (← borrower.toAddress?) (← amount.toAmount?) (← total.toAmount?)
  | "BadDebtSocialized" =>
    let [borrower, recorded, absorbed] ← v.fields? ["borrower", "recorded", "absorbed"] | none
    return .badDebtSocialized (← borrower.toAddress?) (← recorded.toAmount?)
      (← absorbed.toAmount?)
  | "LiquidationParamsUpdated" =>
    let params ← LiquidationParams.ofJson? v
    return .liquidationParamsUpdated params.closeFactor params.fullThreshold
  | "AdminChangeRequested" =>
    let [knob, requestedAt, readyAt] ← v.fields? ["knob", "requested_at", "ready_at"] | none
    return .adminChangeRequested (← Knob.ofJson? knob) (← requestedAt.toWord?)
      (← readyAt.toWord?)
  | "AdminChangeCancelled" =>
    let [knob] ← v.fields? ["knob"] | none
    return .adminChangeCancelled (← Knob.ofJson? knob)
  | "CollateralConfigured" =>
    let [token, params, viaGovernance] ← v.fields? ["token", "params", "via_governance"] | none
    return .collateralConfigured (← token.toAddress?) (← CollateralParams.ofJson? params)
      (← viaGovernance.toBool?)
  | "BorrowModuleChanged" =>
    let [previous, current] ← v.fields? ["previous", "current"] | none
    return .borrowModuleChanged (← previous.toAddress?) (← current.toAddress?)
  | "CollateralStatusChanged" =>
    let [token, enabled] ← v.fields? ["token", "enabled"] | none
    return .collateralStatusChanged (← token.toAddress?) (← enabled.toBool?)
  | "RoleGranted" =>
    let [role, account] ← v.fields? ["role", "account"] | none
    return .roleGranted (← Role.ofJson? role) (← account.toAddress?)
  | "RoleRevoked" =>
    let [role, account] ← v.fields? ["role", "account"] | none
    return .roleRevoked (← Role.ofJson? role) (← account.toAddress?)
  | "PauseChanged" =>
    let [paused, author] ← v.fields? ["paused", "by"] | none
    return .pauseChanged (← paused.toBool?) (← author.toAddress?)
  | _ => none

/-- An event. -/
def Event.ofJson? (v : Json) : Option Event := do
  let (kind, content) ← v.alternative?
  ofFields? kind (← content)

/-! ### Bad debt -/

/-- A record of bad debt. -/
def BadDebt.recordOf? (member : Option String × Json) : Option (Address × Amount) := do
  return (← addressOf? (← member.1), ← member.2.toAmount?)

/-- Bad debt of each borrower and in total; of repeated borrowers the last one counts. -/
def BadDebt.ofJson? (v : Json) : Option BadDebt := do
  match ← v.fields? ["total", "by_borrower"] with
  | [total, .object members] =>
    return ⟨← total.toAmount?, Table.ofList (← members.mapM recordOf?)⟩
  | _ => none

end Custody
