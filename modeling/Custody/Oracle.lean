/-
Dollar prices of tokens.

A price is for one whole token and has eighteen decimals.  A feed that is down
answers nothing.  An open circuit breaker stops the checked reads only; the reads
that bypass it go on.
-/
import Custody.Arithmetic
import Custody.Table

namespace Custody

/-- The price of one whole token and the decimals of the token. -/
structure Price where
  price : Amount
  decimals : UInt8
deriving DecidableEq

/-- Prices, open breakers and feeds that are down. -/
structure Oracle where
  prices : Table Address Price
  breakers : KeySet Address
  down : KeySet Address
deriving DecidableEq

/-- Whether a read heeds the circuit breaker. -/
inductive ReadMode where
  | checked
  | bypassing
deriving DecidableEq

namespace Oracle

/-- The oracle without prices. -/
def empty : Oracle := ⟨.empty, .empty, .empty⟩

/-- The oracle with this price. -/
def setPrice (o : Oracle) (token : Address) (price : Amount) (decimals : UInt8) : Oracle :=
  { o with prices := o.prices.insert token ⟨price, decimals⟩ }

/-- The oracle with the breaker of a token open or closed. -/
def setBreaker (o : Oracle) (token : Address) (isOpen : Bool) : Oracle :=
  { o with breakers := KeySet.put o.breakers token isOpen }

/-- The oracle with the feed of a token down or up. -/
def setDown (o : Oracle) (token : Address) (isDown : Bool) : Oracle :=
  { o with down := KeySet.put o.down token isDown }

/-- The entry of a token, whatever its breaker. -/
def bypassingEntry (o : Oracle) (token : Address) : Except Error Price :=
  if o.down.contains token then .error (.invalidPrice token)
  else
    match o.prices.get? token with
    | none => .error (.invalidPrice token)
    | some entry => .ok entry

/-- The entry of a token, read in a mode. -/
def entry (o : Oracle) (mode : ReadMode) (token : Address) : Except Error Price :=
  if mode = .checked ∧ o.breakers.contains token then .error (.circuitBreakerOpen token)
  else o.bypassingEntry token

/-- The price of one whole token. -/
def price (o : Oracle) (mode : ReadMode) (token : Address) : Except Error Amount := do
  return (← o.entry mode token).price

/-- The dollar value of an amount, rounded down. -/
def value (o : Oracle) (mode : ReadMode) (token : Address) (amount : Amount) :
    Except Error Amount := do
  let entry ← o.entry mode token
  let unit ← Amount.powTen entry.decimals
  amount.mulDiv entry.price unit

end Oracle

end Custody
