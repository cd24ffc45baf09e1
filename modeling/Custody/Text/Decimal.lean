/-
Decimal digits.

Only the ten ASCII digits count.  A list of digits stands for a number; leading zeros
do not change it.
-/

namespace Custody.Decimal

/-- Whether a character is one of the ten digits. -/
def isDigit (c : Char) : Bool :=
  48 ≤ c.toNat && c.toNat ≤ 57

/-- The value of a digit. -/
def digitValue (c : Char) : Nat :=
  c.toNat - 48

/-- The number that digits stand for. -/
def value (digits : List Char) : Nat :=
  digits.foldl (fun n c => 10 * n + digitValue c) 0

/-- The number that a text of digits stands for; there has to be a digit. -/
def natural? (text : List Char) : Option Nat :=
  if text ≠ [] ∧ text.all isDigit then some (value text) else none

/-- Digits appended to a number as long as it stays below a bound, and the digits that are
left over. -/
def appendBelow (bound n : Nat) : (digits : List Char) → Nat × List Char
  | [] => (n, [])
  | c :: rest =>
    let next := 10 * n + digitValue c
    if next < bound then appendBelow bound next rest else (n, c :: rest)

/-- The digits of a number, without leading zeros. -/
def digits (n : Nat) : List Char :=
  Nat.toDigits 10 n

/-- A text of at least this many digits, filled up with zeros at the front. -/
def padded (width n : Nat) : List Char :=
  let ds := digits n
  List.replicate (width - ds.length) '0' ++ ds

end Custody.Decimal
