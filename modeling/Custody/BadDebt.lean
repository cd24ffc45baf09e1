/-
Debt that no collateral covers.

The shortfall of a capped liquidation is recorded against the borrower and in a
total.  The total is the sum of the records, which `verify` checks; a book read from
stored data need not have this property.
-/
import Custody.Action
import Custody.Arithmetic
import Custody.Book

namespace Custody

/-- Bad debt of each borrower and in total. -/
structure BadDebt where
  total : Amount
  records : Tally
deriving DecidableEq

namespace BadDebt

/-- The book without records. -/
def empty : BadDebt := ⟨0, .empty⟩

/-- The bad debt recorded against a borrower. -/
def of (b : BadDebt) (borrower : Address) : Amount :=
  Tally.amount b.records borrower

/-- Add a shortfall; answers with the new total. -/
def record (borrower : Address) (amount : Amount) : Action BadDebt Amount := do
  let b ← get
  let total ← b.total.add amount
  let own ← (b.of borrower).add amount
  set (BadDebt.mk total (b.records.insert borrower own))
  return total

/-- Drop the record of a borrower, which has to be positive; answers with its amount. -/
def clear (borrower : Address) : Action BadDebt Amount := do
  let b ← get
  let recorded := b.of borrower
  if recorded = 0 then throw (.noBadDebt borrower)
  let total ← b.total.subtract recorded
  set (BadDebt.mk total (b.records.erase borrower))
  return recorded

/-- Add amounts from the left, as long as the sum is an amount. -/
def sum (amounts : List Amount) : Except Error Amount :=
  amounts.foldlM Amount.add 0

/-- Check that the total is the sum of the records. -/
def verify (b : BadDebt) : Except Error Unit := do
  let sum ← sum b.records.values
  if sum ≠ b.total then
    throw (.invariantViolation s!"bad debt total {b.total} != sum of borrowers {sum}")

end BadDebt

end Custody
