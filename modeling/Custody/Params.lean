/-
Risk parameters of collateral tokens and the sizing of liquidations.
-/
import Custody.Error
import Custody.Limits

namespace Custody

/-! ### Collateral -/

/-- Risk parameters of a collateral token, in basis points. -/
structure CollateralParams where
  /-- Share of the value that may be borrowed against. -/
  factor : UInt64
  /-- Share of the value that counts toward the health factor. -/
  threshold : UInt64
  /-- What liquidators receive on top of the repaid value. -/
  penalty : UInt64
deriving DecidableEq

/-- Check `0 < factor < threshold ≤ 9500` and `100 ≤ penalty ≤ 2000`. -/
def CollateralParams.validate (p : CollateralParams) : Except Error Unit :=
  if p.factor = 0 then .error (.invalidParameter "collateral_factor_bps" "must be positive")
  else if p.threshold ≤ p.factor then
    .error (.invalidParameter "collateral_factor_bps"
      s!"{p.factor} must be below liquidation threshold {p.threshold}")
  else if maxThresholdBps < p.threshold then
    .error (.invalidParameter "liquidation_threshold_bps"
      s!"{p.threshold} exceeds maximum {maxThresholdBps}")
  else if p.penalty < minPenaltyBps ∨ maxPenaltyBps < p.penalty then
    .error (.invalidParameter "liquidation_penalty_bps"
      s!"{p.penalty} outside [{minPenaltyBps}, {maxPenaltyBps}]")
  else .ok ()

/-- What is stored for a listed token. -/
structure CollateralConfig where
  /-- Whether new deposits are taken. -/
  enabled : Bool
  params : CollateralParams
deriving DecidableEq

namespace CollateralConfig

/-- A newly listed token takes deposits. -/
def listed (params : CollateralParams) : CollateralConfig := ⟨true, params⟩

/-- Whether the token was ever added: its collateral factor is positive. -/
def isAdded (c : CollateralConfig) : Bool :=
  0 < c.params.factor

end CollateralConfig

/-! ### Liquidation -/

/-- Sizing of liquidations, in basis points. -/
structure LiquidationParams where
  /-- Share of a debt that one liquidation may repay. -/
  closeFactor : UInt64
  /-- Health factor below which the whole debt may be repaid. -/
  fullThreshold : UInt64
deriving DecidableEq

namespace LiquidationParams

/-- The sizing unless governance sets another. -/
def standard : LiquidationParams := ⟨defaultCloseFactorBps, defaultFullThresholdBps⟩

/-- Check `0 < closeFactor ≤ 10000`. -/
def checkCloseFactor (bps : UInt64) : Except Error Unit :=
  if bps = 0 ∨ bpsWhole < bps then
    .error (.invalidParameter "close_factor_bps" s!"{bps} outside (0, {bpsWhole}]")
  else .ok ()

/-- Check `0 < fullThreshold < 10000`. -/
def checkFullThreshold (bps : UInt64) : Except Error Unit :=
  if bps = 0 ∨ parityBps ≤ bps then
    .error (.invalidParameter "full_liquidation_threshold_bps" s!"{bps} outside (0, {parityBps})")
  else .ok ()

/-- Check both. -/
def validate (p : LiquidationParams) : Except Error Unit := do
  checkCloseFactor p.closeFactor
  checkFullThreshold p.fullThreshold

end LiquidationParams

end Custody
