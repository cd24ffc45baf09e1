/-
The calls that accounts make.

A call is performed by its component and may leave effects when it is refused.
Submitted to the protocol it is a transaction.  The two components pause together
when the pause is submitted; each can also be paused by itself.
-/
import Custody.Protocol.Liquidation
import Custody.Vault.Administration

namespace Custody

/-- A call with its arguments. -/
inductive Call where
  | deposit (token : Address) (amount : Amount)
  | depositFor (user token : Address) (amount : Amount)
  | withdraw (user token : Address) (amount : Amount)
  | seize (user token : Address) (amount : Amount) (liquidator : Address)
  | withdrawFor (user token : Address) (amount : Amount) (recipient : Address) (skipCheck : Bool)
  | liquidate (borrower token : Address) (offer : Amount)
  | socialize (borrower : Address)
  | requestAdd (token : Address) (params : CollateralParams)
  | cancelAdd (token : Address)
  | executeAdd (token : Address)
  | addCollateral (token : Address) (params : CollateralParams)
  | requestUpdate (token : Address) (params : CollateralParams)
  | cancelUpdate (token : Address)
  | executeUpdate (token : Address)
  | requestModule (next : Address)
  | cancelModule
  | executeModule
  | disable (token : Address)
  | enable (token : Address)
  | setCloseFactor (bps : UInt64)
  | setFullThreshold (bps : UInt64)
  | grantVaultRole (role : Role) (account : Address)
  | revokeVaultRole (role : Role) (account : Address)
  | grantEngineRole (role : Role) (account : Address)
  | revokeEngineRole (role : Role) (account : Address)
  | pause
  | unpause
deriving DecidableEq

/-- What a call answers with. -/
inductive Reply where
  /-- Nothing but that it was done. -/
  | done
  /-- An amount received or written off. -/
  | amount (amount : Amount)
  /-- What a liquidation did. -/
  | outcome (outcome : Outcome)
deriving DecidableEq

namespace Protocol

/-! ### Pauses of one component -/

/-- Pause the vault. -/
def pauseVault (ctx : Context) : Action Protocol Unit :=
  vaultCall (onVault (Vault.pause ctx))

/-- End the pause of the vault. -/
def unpauseVault (ctx : Context) : Action Protocol Unit :=
  vaultCall (onVault (Vault.unpause ctx))

/-- Pause the engine. -/
def pauseEngine (ctx : Context) : Action Protocol Unit :=
  engineCall (onEngine (Engine.pause ctx))

/-- End the pause of the engine. -/
def unpauseEngine (ctx : Context) : Action Protocol Unit :=
  engineCall (onEngine (Engine.unpause ctx))

/-! ### Performing calls -/

/-- An administrative change of the vault. -/
def administer (change : Action Vault Unit) : Action Protocol Reply := do
  vaultCall (onVault change)
  return .done

/-- A governed change of the engine. -/
def govern (change : Action Engine Unit) : Action Protocol Reply := do
  engineCall (onEngine change)
  return .done

/-- Perform a call on the components. -/
def perform (ctx : Context) : Call → Action Protocol Reply
  | .deposit token amount => return .amount (← deposit ctx token amount)
  | .depositFor user token amount => return .amount (← depositFor ctx user token amount)
  | .withdraw user token amount => do
    withdraw ctx user token amount
    return .done
  | .seize user token amount liquidator => do
    seize ctx user token amount liquidator
    return .done
  | .withdrawFor user token amount recipient skipCheck => do
    withdrawFor ctx user token amount recipient skipCheck
    return .done
  | .liquidate borrower token offer => return .outcome (← liquidate ctx borrower token offer)
  | .socialize borrower => return .amount (← socialize ctx borrower)
  | .requestAdd token params => administer (Vault.requestAdd ctx token params)
  | .cancelAdd token => administer (Vault.cancelAdd ctx token)
  | .executeAdd token => administer (Vault.executeAdd ctx token)
  | .addCollateral token params => administer (Vault.addCollateral ctx token params)
  | .requestUpdate token params => administer (Vault.requestUpdate ctx token params)
  | .cancelUpdate token => administer (Vault.cancelUpdate ctx token)
  | .executeUpdate token => administer (Vault.executeUpdate ctx token)
  | .requestModule next => administer (Vault.requestModule ctx next)
  | .cancelModule => administer (Vault.cancelModule ctx)
  | .executeModule => administer (Vault.executeModule ctx)
  | .disable token => administer (Vault.setEnabled false ctx token)
  | .enable token => administer (Vault.setEnabled true ctx token)
  | .setCloseFactor bps => govern (Engine.setCloseFactor ctx bps)
  | .setFullThreshold bps => govern (Engine.setFullThreshold ctx bps)
  | .grantVaultRole role account => administer (Vault.grantRole ctx role account)
  | .revokeVaultRole role account => administer (Vault.revokeRole ctx role account)
  | .grantEngineRole role account => govern (Engine.grantRole ctx role account)
  | .revokeEngineRole role account => govern (Engine.revokeRole ctx role account)
  | .pause => do
    pauseVault ctx
    pauseEngine ctx
    return .done
  | .unpause => do
    unpauseVault ctx
    unpauseEngine ctx
    return .done

/-- Perform a call of an account at the present time. -/
def direct (caller : Address) (call : Call) : Action Protocol Reply := do
  perform ⟨caller, (← get).clock⟩ call

/-- Submit a call of an account as a transaction. -/
def submit (caller : Address) (call : Call) : Action Protocol Reply :=
  atomic (direct caller call)

end Protocol

end Custody
