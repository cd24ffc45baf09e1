/-
Administration of the vault.

Listing a token, changing its parameters and replacing the borrow module wait for a
delay between request and execution; what is executed is checked again, because the
vault may have changed meanwhile.  Governance has a delay of its own and lists tokens
at once.
-/
import Custody.Vault

namespace Custody.Vault

/-! ### Checks -/

/-- Check that a token can be listed with these parameters. -/
def checkAdd (v : Vault) (token : Address) (params : CollateralParams) : Except Error Unit := do
  token.ensureNonZero "token"
  params.validate
  if (v.added? token).isSome then throw (.tokenAlreadyAdded token)
  if maxTokens ≤ v.listed.length then throw (.tooManyTokens maxTokens)

/-- The config of a listed token. -/
def requireAdded (v : Vault) (token : Address) : Except Error CollateralConfig :=
  match v.added? token with
  | none => .error (.tokenNotSupported token)
  | some config => .ok config

/-- Check that a token can get these parameters. -/
def checkUpdate (v : Vault) (token : Address) (params : CollateralParams) :
    Except Error Unit := do
  discard (v.requireAdded token)
  params.validate

/-- Run on the proposals for listing a token. -/
def onAdds {α : Type} : Action (Timelock.Queue Address CollateralParams) α → Action Vault α :=
  Action.on pendingAdds fun q v => { v with pendingAdds := q }

/-- Run on the proposals for changing parameters. -/
def onUpdates {α : Type} :
    Action (Timelock.Queue Address CollateralParams) α → Action Vault α :=
  Action.on pendingUpdates fun q v => { v with pendingUpdates := q }

/-- Run on the proposal for another borrow module. -/
def onModule {α : Type} : Action (Timelock.Slot Address) α → Action Vault α :=
  Action.on pendingModule fun s v => { v with pendingModule := s }

/-- Tell that a change was requested. -/
def tellRequested (now : Timestamp) (knob : Knob) : Action Vault Unit :=
  tell now (.adminChangeRequested knob now (Timestamp.after now changeDelay))

/-! ### Listing a token -/

/-- The vault with one more listed token. -/
def withToken (v : Vault) (token : Address) (params : CollateralParams) : Vault :=
  { v with
    configs := v.configs.insert token (.listed params)
    listed := v.listed ++ [token] }

/-- Propose to list a token. -/
def requestAdd (ctx : Context) (token : Address) (params : CollateralParams) :
    Action Vault Unit := do
  let v ← get
  v.access.ensure .vaultAdmin ctx.caller
  v.checkAdd token params
  onAdds (Timelock.Queue.propose token params ctx.now)
  tellRequested ctx.now (.addCollateral token)

/-- Drop the proposal to list a token. -/
def cancelAdd (ctx : Context) (token : Address) : Action Vault Unit := do
  (← get).access.ensure .vaultAdmin ctx.caller
  discard (onAdds (Timelock.Queue.cancel token))
  tell ctx.now (.adminChangeCancelled (.addCollateral token))

/-- List a token as proposed, once the delay has passed. -/
def executeAdd (ctx : Context) (token : Address) : Action Vault Unit := do
  let v ← get
  v.access.ensure .vaultAdmin ctx.caller
  let params ← v.pendingAdds.ready token ctx.now changeDelay
  v.checkAdd token params
  set (v.withToken token params)
  onAdds (Timelock.Queue.clear token)
  tell ctx.now (.collateralConfigured token params false)

/-- List a token at once. -/
def addCollateral (ctx : Context) (token : Address) (params : CollateralParams) :
    Action Vault Unit := do
  let v ← get
  v.access.ensure .governance ctx.caller
  v.checkAdd token params
  set (v.withToken token params)
  tell ctx.now (.collateralConfigured token params true)

/-! ### Changing a listed token -/

/-- Propose new parameters for a token. -/
def requestUpdate (ctx : Context) (token : Address) (params : CollateralParams) :
    Action Vault Unit := do
  let v ← get
  v.access.ensure .vaultAdmin ctx.caller
  v.checkUpdate token params
  onUpdates (Timelock.Queue.propose token params ctx.now)
  tellRequested ctx.now (.updateCollateral token)

/-- Drop the proposal of new parameters for a token. -/
def cancelUpdate (ctx : Context) (token : Address) : Action Vault Unit := do
  (← get).access.ensure .vaultAdmin ctx.caller
  discard (onUpdates (Timelock.Queue.cancel token))
  tell ctx.now (.adminChangeCancelled (.updateCollateral token))

/-- Set the parameters of a token as proposed, once the delay has passed. -/
def executeUpdate (ctx : Context) (token : Address) : Action Vault Unit := do
  let v ← get
  v.access.ensure .vaultAdmin ctx.caller
  let params ← v.pendingUpdates.ready token ctx.now changeDelay
  let config ← v.requireAdded token
  params.validate
  set { v with configs := v.configs.insert token { config with params := params } }
  onUpdates (Timelock.Queue.clear token)
  tell ctx.now (.collateralConfigured token params false)

/-- Open or close deposits of a listed token. -/
def setEnabled (enabled : Bool) (ctx : Context) (token : Address) : Action Vault Unit := do
  let v ← get
  v.access.ensure .vaultAdmin ctx.caller
  let config ← v.requireAdded token
  set { v with configs := v.configs.insert token { config with enabled := enabled } }
  tell ctx.now (.collateralStatusChanged token enabled)

/-! ### Replacing the borrow module -/

/-- Propose another borrow module. -/
def requestModule (ctx : Context) (next : Address) : Action Vault Unit := do
  (← get).access.ensure .vaultAdmin ctx.caller
  next.ensureNonZero "borrow_module"
  onModule (Timelock.Slot.propose next ctx.now)
  tellRequested ctx.now .borrowModule

/-- Drop the proposal of another borrow module. -/
def cancelModule (ctx : Context) : Action Vault Unit := do
  (← get).access.ensure .vaultAdmin ctx.caller
  discard (onModule Timelock.Slot.cancel)
  tell ctx.now (.adminChangeCancelled .borrowModule)

/-- Replace the borrow module as proposed, once the delay has passed. -/
def executeModule (ctx : Context) : Action Vault Unit := do
  let v ← get
  v.access.ensure .vaultAdmin ctx.caller
  let next ← v.pendingModule.ready ctx.now changeDelay
  next.ensureNonZero "borrow_module"
  set { v with borrowModule := next }
  onModule Timelock.Slot.clear
  tell ctx.now (.borrowModuleChanged v.borrowModule next)

/-! ### Roles and pauses -/

/-- Run on the members of roles. -/
def onAccess {α : Type} : Action Access α → Action Vault α :=
  Action.on access fun a v => { v with access := a }

/-- Give a role to an account; an account that holds it already causes no event. -/
def grantRole (ctx : Context) (role : Role) (account : Address) : Action Vault Unit := do
  if ← onAccess (Access.grant ctx.caller role account) then
    tell ctx.now (.roleGranted role account)

/-- Take a role from an account; an account that lacks it causes no event. -/
def revokeRole (ctx : Context) (role : Role) (account : Address) : Action Vault Unit := do
  if ← onAccess (Access.revoke ctx.caller role account) then
    tell ctx.now (.roleRevoked role account)

/-- Write whether the vault is paused. -/
def setPaused (paused : Bool) (ctx : Context) : Action Vault Unit := do
  modify fun v => { v with paused := paused }
  tell ctx.now (.pauseChanged paused ctx.caller)

/-- Stop deposits and withdrawals by integrators. -/
def pause (ctx : Context) : Action Vault Unit := do
  (← get).access.ensure .pauser ctx.caller
  setPaused true ctx

/-- End a pause. -/
def unpause (ctx : Context) : Action Vault Unit := do
  (← get).access.ensure .admin ctx.caller
  setPaused false ctx

end Custody.Vault
