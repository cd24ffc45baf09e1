/-
Books of amounts.

A tally has one amount per address and a book has one per pair of addresses.  An
absent entry counts as zero, but an entry that holds zero stays: what is listed
depends on the history, what is read does not.
-/
import Custody.Address
import Custody.Amount
import Custody.Table

namespace Custody

/-- One amount per address. -/
abbrev Tally := Table Address Amount

/-- The amount at an address, zero if there is no entry. -/
def Tally.amount (t : Tally) (k : Address) : Amount :=
  (t.get? k).getD 0

/-- One amount per pair of addresses. -/
abbrev Book := Table Address Tally

namespace Book

/-- The entries whose pair starts with this address. -/
def row (b : Book) (x : Address) : Tally :=
  (b.get? x).getD .empty

/-- The amount at a pair, zero if there is no entry. -/
def amount (b : Book) (x y : Address) : Amount :=
  Tally.amount (row b x) y

/-- The book with this amount at this pair. -/
def put (b : Book) (x y : Address) (v : Amount) : Book :=
  Table.insert b x ((row b x).insert y v)

/-- Every entry, by the first address and then by the second. -/
def lines (b : Book) : List (Address × Address × Amount) :=
  b.entries.flatMap fun r => r.2.entries.map fun e => (r.1, e.1, e.2)

/-- Putting an amount changes that pair alone. -/
theorem amount_put (b : Book) (x y x' y' : Address) (v : Amount) :
    amount (put b x y v) x' y' = if x' = x ∧ y' = y then v else amount b x' y' := by
  simp only [amount, put, row, Tally.amount, Table.get?_insert]
  by_cases hx : x' = x
  · subst hx
    by_cases hy : y' = y <;> simp [hy]
  · simp [hx]

end Book

end Custody
