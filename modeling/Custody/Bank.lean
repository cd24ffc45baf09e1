/-
The bank that keeps token balances.

A token has decimals once it is registered.  A transfer may cost a fee, a share of
the amount that leaves the supply, so a recipient has to measure what arrived.  No
frozen token moves.  A spender moves another's tokens up to the allowance it was
given, and each such transfer uses up that much of the allowance.
-/
import Custody.Action
import Custody.Arithmetic
import Custody.Book

namespace Custody

/-- Balances, allowances and properties of tokens. -/
structure Bank where
  /-- The balance of each account, by token. -/
  balances : Book
  /-- What each owner lets each spender move, by token. -/
  allowances : Table Address Book
  decimals : Table Address UInt8
  supply : Tally
  fees : Table Address UInt64
  frozen : KeySet Address
deriving DecidableEq

namespace Bank

/-- The bank without tokens. -/
def empty : Bank := ⟨.empty, .empty, .empty, .empty, .empty, .empty⟩

/-! ### Reading -/

/-- The balance of an account. -/
def balance (b : Bank) (token account : Address) : Amount :=
  Book.amount b.balances token account

/-- The allowances of a token, by owner and spender. -/
def allowanceBook (b : Bank) (token : Address) : Book :=
  (b.allowances.get? token).getD .empty

/-- How much of the owner's tokens the spender may still move. -/
def allowance (b : Bank) (token owner spender : Address) : Amount :=
  Book.amount (b.allowanceBook token) owner spender

/-- The sum of all balances of a token. -/
def totalSupply (b : Bank) (token : Address) : Amount :=
  Tally.amount b.supply token

/-- The fee on transfers of a token. -/
def fee (b : Bank) (token : Address) : UInt64 :=
  (b.fees.get? token).getD 0

/-- The decimals of a token, which has to be registered. -/
def decimalsOf (b : Bank) (token : Address) : Except Error UInt8 :=
  match b.decimals.get? token with
  | none => .error (.transferFailed token "unknown token")
  | some d => .ok d

/-- Refuse a token that is not registered. -/
def ensureKnown (b : Bank) (token : Address) : Except Error Unit := do
  discard (b.decimalsOf token)

/-- Refuse a token that is not registered or is frozen. -/
def ensureMovable (b : Bank) (token : Address) : Except Error Unit := do
  b.ensureKnown token
  if b.frozen.contains token then throw (.transferFailed token "token frozen")

/-! ### Properties of tokens -/

/-- Register a token. -/
def register (token : Address) (decimals : UInt8) : Action Bank Unit :=
  modify fun b => { b with decimals := b.decimals.insert token decimals }

/-- Set the fee on transfers of a token. -/
def setFee (token : Address) (bps : UInt64) : Action Bank Unit := do
  if bpsWhole < bps then throw (.invalidParameter "fee_bps" s!"{bps} exceeds {bpsWhole}")
  modify fun b => { b with fees := b.fees.insert token bps }

/-- Freeze a token or end the freeze. -/
def setFrozen (token : Address) (frozen : Bool) : Action Bank Unit :=
  modify fun b => { b with frozen := KeySet.put b.frozen token frozen }

/-! ### Movements -/

/-- Write a balance. -/
def putBalance (token account : Address) (amount : Amount) : Action Bank Unit :=
  modify fun b => { b with balances := Book.put b.balances token account amount }

/-- Write a supply. -/
def putSupply (token : Address) (amount : Amount) : Action Bank Unit :=
  modify fun b => { b with supply := b.supply.insert token amount }

/-- Let a spender move up to an amount of the owner's tokens. -/
def approve (token owner spender : Address) (amount : Amount) : Action Bank Unit :=
  modify fun b =>
    let book := Book.put (b.allowanceBook token) owner spender amount
    { b with allowances := b.allowances.insert token book }

/-- Create tokens. -/
def mint (token recipient : Address) (amount : Amount) : Action Bank Unit := do
  let b ← get
  b.ensureKnown token
  let supply ← (b.totalSupply token).add amount
  let balance ← (b.balance token recipient).add amount
  putBalance token recipient balance
  putSupply token supply

/-- Take an amount from one account and give it, less the fee, to another. -/
def move (token sender recipient : Address) (amount : Amount) : Action Bank Unit := do
  let b ← get
  let available := b.balance token sender
  if available < amount then
    throw (.transferFailed token s!"balance {available} below {amount}")
  let fee ← amount.share (b.fee token)
  let received ← amount.subtract fee
  putBalance token sender (available - amount)
  let balance ← ((← get).balance token recipient).add received
  putBalance token recipient balance
  if 0 < fee then putSupply token (b.totalSupply token - fee)

/-- Move the sender's own tokens. -/
def transfer (token sender recipient : Address) (amount : Amount) : Action Bank Unit := do
  (← get).ensureMovable token
  recipient.ensureNonZero "to"
  move token sender recipient amount

/-- Move the owner's tokens with the spender's allowance. -/
def transferFrom (token spender owner recipient : Address) (amount : Amount) :
    Action Bank Unit := do
  let b ← get
  b.ensureMovable token
  recipient.ensureNonZero "to"
  let allowed := b.allowance token owner spender
  if allowed < amount then
    throw (.transferFailed token s!"allowance {allowed} below {amount}")
  move token owner recipient amount
  approve token owner spender (allowed - amount)

/-- Destroy tokens of an account. -/
def burn (token account : Address) (amount : Amount) : Action Bank Unit := do
  let b ← get
  b.ensureMovable token
  let available := b.balance token account
  if available < amount then
    throw (.transferFailed token s!"balance {available} below {amount}")
  putBalance token account (available - amount)
  let supply ← (b.totalSupply token).subtract amount
  putSupply token supply

end Bank

end Custody
