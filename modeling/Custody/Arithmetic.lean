/-
Checked arithmetic on amounts.

Products are formed exactly and divided once, rounding down, so a formula multiplies
before it divides.  A product of three factors has to fit twice the width of an
amount; every result has to be an amount.  A failed operation names its operands.
-/
import Custody.Error
import Custody.Limits

namespace Custody.Amount

/-! ### Sums and differences -/

/-- The sum, if it is an amount. -/
def add (a b : Amount) : Except Error Amount :=
  if h : a.val + b.val < size then .ok ⟨a.val + b.val, h⟩
  else .error (.overflow s!"{a} + {b}")

/-- The difference, if it is not negative. -/
def subtract (a b : Amount) : Except Error Amount :=
  if b ≤ a then .ok (a - b) else .error (.underflow s!"{a} - {b}")

/-! ### Products and quotients -/

/-- A number as an amount, or an overflow in the named operation. -/
def narrow (n : Nat) (operation : String) : Except Error Amount :=
  if h : n < size then .ok ⟨n, h⟩ else .error (.overflow operation)

/-- Ten to the power of a number of decimals. -/
def powTen (decimals : UInt8) : Except Error Amount :=
  narrow (Nat.pow 10 decimals.toNat) s!"10^{decimals}"

/-- The error for a quotient by zero. -/
def zeroDivisor : Error :=
  .invalidParameter "divisor" "division by zero"

/-- `a * b / c`, rounded down. -/
def mulDiv (a b c : Amount) : Except Error Amount :=
  if c = 0 then .error zeroDivisor
  else narrow (a.val * b.val / c.val) s!"({a} * {b}) / {c}"

/-- `a * b * c / d`, rounded down, if the product fits twice the width of an amount. -/
def mulMulDiv (a b c d : Amount) : Except Error Amount :=
  if d = 0 then .error zeroDivisor
  else if a.val * b.val * c.val < size * size then
    narrow (a.val * b.val * c.val / d.val) s!"({a} * {b} * {c}) / {d}"
  else .error (.overflow s!"{a} * {b} * {c}")

/-- Ten thousand basis points as an amount. -/
def whole : Amount := ofWord bpsWhole

/-- A share of an amount, rounded down. -/
def share (a : Amount) (bps : UInt64) : Except Error Amount :=
  mulDiv a (ofWord bps) whole

/-! ### Seizures -/

/-- The whole and a penalty together.  This is the sum itself, for every penalty.  The sum of the
two words is the same only where it is a word, so not for the last 10000 penalties that there are;
no penalty in force is near them (`CollateralParams.validate`). -/
def withPenalty (penalty : UInt64) : Amount :=
  ⟨bpsWhole.toNat + penalty.toNat, by
    have := penalty.toNat_lt
    simp only [bpsWhole, UInt64.reduceToNat, size]
    omega⟩

/-- Collateral units owed for a repayment:
`repay * (10000 + penalty) * 10 ^ decimals / (10000 * price)`. -/
def collateralFor (repay : Amount) (penalty : UInt64) (price : Amount) (decimals : UInt8) :
    Except Error Amount := do
  let denominator ← narrow (whole.val * price.val) s!"{whole} * {price}"
  let unit ← powTen decimals
  mulMulDiv repay (withPenalty penalty) unit denominator

/-- The repayment that a seizure of this dollar value justifies:
`value * 10000 / (10000 + penalty)`. -/
def repaymentFor (value : Amount) (penalty : UInt64) : Except Error Amount :=
  mulDiv value whole (withPenalty penalty)

end Custody.Amount
