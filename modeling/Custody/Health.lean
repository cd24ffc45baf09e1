/-
How well a debt is covered.

The health factor is the dollar value of the collateral, each token weighted by its
liquidation threshold, over the debt, in basis points.  Tokens that take no deposits
count too.  A user without debt has the largest factor there is.

A reading asks the checked prices first and the bypassing ones if that fails.
-/
import Custody.Ledger
import Custody.Oracle
import Custody.Params

namespace Custody

/-- What is read of custody: the listed tokens, their configs and the deposits. -/
structure CollateralView where
  tokens : List Address
  config : Address → Option CollateralConfig
  deposit : (user token : Address) → Amount

namespace Health

/-- The factor of a user without debt, and the cap of all others. -/
def top : UInt64 := 18446744073709551615

/-- What one token adds to the weighted value; nothing without deposit or config. -/
def weighted (o : Oracle) (mode : ReadMode) (view : CollateralView) (user token : Address) :
    Except Error Amount := do
  let amount := view.deposit user token
  if amount = 0 then return 0
  match view.config token with
  | none => return 0
  | some config =>
    let value ← o.value mode token amount
    value.share config.params.threshold

/-- The weighted value of the listed tokens. -/
def weightedSum (o : Oracle) (mode : ReadMode) (view : CollateralView) (user : Address) :
    Except Error Amount :=
  view.tokens.foldlM (fun sum token => do sum.add (← weighted o mode view user token)) 0

/-- An amount as a factor, capped at the largest one. -/
def cap (factor : Amount) : UInt64 :=
  UInt64.ofNat (min factor.val top.toNat)

/-- The health factor of a user. -/
def factor (l : Ledger) (o : Oracle) (mode : ReadMode) (view : CollateralView) (user : Address) :
    Except Error UInt64 :=
  if l.debt user = 0 then .ok top
  else do
    let sum ← weightedSum o mode view user
    return cap (← sum.mulDiv Amount.whole (l.debt user))

/-- How a health factor was read. -/
inductive Reading where
  /-- From checked prices. -/
  | primary (factor : UInt64)
  /-- From bypassing prices, after the checked ones failed. -/
  | fallback (factor : UInt64)
  /-- Not at all. -/
  | unavailable
deriving DecidableEq

namespace Reading

/-- The factor that was read. -/
def value? : Reading → Option UInt64
  | primary factor | fallback factor => some factor
  | unavailable => none

/-- The form shown to people who debug. -/
def debugText : Reading → String
  | primary factor => s!"Primary({factor})"
  | fallback factor => s!"Fallback({factor})"
  | unavailable => "Unavailable"

end Reading

/-- Read the health factor of a user. -/
def read (l : Ledger) (o : Oracle) (view : CollateralView) (user : Address) : Reading :=
  match factor l o .checked view user with
  | .ok f => .primary f
  | .error _ =>
    match factor l o .bypassing view user with
    | .ok f => .fallback f
    | .error _ => .unavailable

end Health

end Custody
