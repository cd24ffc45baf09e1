/-
The vault that holds collateral.

The vault is an account of the bank.  It books what each user has deposited of each
token, and for each token the total, which is the sum of the deposits.  Tokens are
listed in the order they were added and never leave the list.

A withdrawal debits the books before tokens move; the receipt of a debit holds the
two amounts it replaced, so that the debit can be undone.
-/
import Custody.Access
import Custody.Event
import Custody.Guard
import Custody.Health
import Custody.Timelock

namespace Custody

/-- Who calls, and when. -/
structure Context where
  caller : Address
  now : Timestamp
deriving DecidableEq

/-- Custody of collateral. -/
structure Vault where
  /-- The account of the bank that holds the tokens. -/
  address : Address
  access : Access
  /-- The only account that may withdraw for users without a role. -/
  borrowModule : Address
  configs : Table Address CollateralConfig
  /-- The listed tokens in the order they were added. -/
  listed : List Address
  /-- Deposits by user and token. -/
  deposits : Book
  /-- The sum of the deposits of each token. -/
  totals : Tally
  pendingAdds : Timelock.Queue Address CollateralParams
  pendingUpdates : Timelock.Queue Address CollateralParams
  pendingModule : Timelock.Slot Address
  paused : Bool
  events : EventLog
  guard : Guard

namespace Vault

/-- An empty vault. -/
def start (address admin borrowModule : Address) : Except Error Vault := do
  address.ensureNonZero "vault"
  borrowModule.ensureNonZero "borrow_module"
  return {
    address := address
    access := ← Access.start admin
    borrowModule := borrowModule
    configs := .empty
    listed := []
    deposits := .empty
    totals := .empty
    pendingAdds := .vacant "add collateral"
    pendingUpdates := .vacant "update collateral"
    pendingModule := .vacant "borrow module"
    paused := false
    events := .standard
    guard := .free }

/-- A copy of the vault, with a guard of its own. -/
def copy (v : Vault) : Vault := { v with guard := .free }

/-! ### Reading -/

/-- What a user has deposited of a token. -/
def depositOf (v : Vault) (user token : Address) : Amount :=
  Book.amount v.deposits user token

/-- The sum of the deposits of a token. -/
def total (v : Vault) (token : Address) : Amount :=
  Tally.amount v.totals token

/-- What health factors are computed from. -/
def view (v : Vault) : CollateralView :=
  ⟨v.listed, v.configs.get?, v.depositOf⟩

/-- The config of a token that was added. -/
def added? (v : Vault) (token : Address) : Option CollateralConfig :=
  (v.configs.get? token).filter (·.isAdded)

/-- The dollar value of a user's collateral at checked prices. -/
def collateralValue (v : Vault) (o : Oracle) (user : Address) : Except Error Amount :=
  v.listed.foldlM (fun sum token => do
    let amount := v.depositOf user token
    if amount = 0 then return sum
    sum.add (← o.value .checked token amount)) 0

/-- Refuse while paused. -/
def ensureRunning (v : Vault) : Except Error Unit :=
  if v.paused then .error .paused else .ok ()

/-- Refuse a token that takes no deposits. -/
def ensureEnabled (v : Vault) (token : Address) : Except Error Unit :=
  match v.configs.get? token with
  | none => .error (.tokenNotSupported token)
  | some config => if config.enabled then .ok () else .error (.tokenDisabled token)

/-! ### The two books agree -/

/-- The sum of the deposits of each token. -/
def sums (v : Vault) : Except Error Tally :=
  (Book.lines v.deposits).foldlM (fun sums line => do
    let sum ← (Tally.amount sums line.2.1).add line.2.2
    return sums.insert line.2.1 sum) Table.empty

/-- Check for each token that the total is the sum of the deposits. -/
def verify (v : Vault) : Except Error Unit := do
  let sums ← v.sums
  (v.totals.keys ++ sums.keys).forM fun token => do
    let recorded := v.total token
    let summed := Tally.amount sums token
    if recorded ≠ summed then
      throw (.invariantViolation
        s!"token {token} total {recorded} != sum of deposits {summed}")

/-! ### Changing the books -/

/-- Tell what happened. -/
def tell (now : Timestamp) (event : Event) : Action Vault Unit :=
  modify fun v => { v with events := v.events.add now event }

/-- Write a deposit and the total of its token. -/
def putDeposit (v : Vault) (user token : Address) (deposit total : Amount) : Vault :=
  { v with
    deposits := Book.put v.deposits user token deposit
    totals := v.totals.insert token total }

/-- Add to a deposit. -/
def credit (user token : Address) (amount : Amount) : Action Vault Unit := do
  let v ← get
  let deposit ← (v.depositOf user token).add amount
  let total ← (v.total token).add amount
  set (v.putDeposit user token deposit total)

/-- The deposit and the total that a debit replaced. -/
structure Receipt where
  user : Address
  token : Address
  deposit : Amount
  total : Amount
deriving DecidableEq

/-- Put back what a debit replaced. -/
def undo (receipt : Receipt) (v : Vault) : Vault :=
  v.putDeposit receipt.user receipt.token receipt.deposit receipt.total

/-- Take from a deposit. -/
def debit (user token : Address) (amount : Amount) : Action Vault Receipt := do
  let v ← get
  let available := v.depositOf user token
  if available < amount then throw (.insufficientDeposit amount available)
  let before := v.total token
  let total ← before.subtract amount
  set (v.putDeposit user token (available - amount) total)
  return ⟨user, token, available, before⟩

end Vault

end Custody
