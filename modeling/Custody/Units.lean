/-
Amounts as people write them.

An amount counts the smallest units of a token.  People write whole tokens with a
decimal point, so reading and writing both need the number of decimals.  Shares and
health factors are written as a quotient with fixed places.
-/
import Custody.Arithmetic
import Custody.Text.Blank
import Custody.Text.Decimal

namespace Custody.Units

/-! ### Reading -/

/-- The error for a text that is no amount. -/
def invalid (reason text : String) : Error :=
  .invalidParameter "amount" s!"{reason}: {text}"

/-- The parts of a text before and after its first point. -/
def splitPoint (text : List Char) : List Char × List Char :=
  (text.takeWhile (· ≠ '.'), (text.dropWhile (· ≠ '.')).drop 1)

/-- The number of bytes that characters take in UTF-8. -/
def utf8Length (text : List Char) : Nat :=
  (String.ofList text).utf8ByteSize

/-- Read an amount with a number of decimals.  White space around it is ignored. -/
def parse (text : String) (decimals : UInt8) : Except Error Amount :=
  let (whole, fraction) := splitPoint (Blank.trim text.toList)
  let places := decimals.toNat
  if whole = [] ∧ fraction = [] then .error (invalid "empty amount" text)
  else if places < utf8Length fraction then .error (invalid "too many decimal places" text)
  else if ¬ (whole ++ fraction).all Decimal.isDigit then
    .error (invalid "not a decimal number" text)
  else
    let missing := List.replicate (places - fraction.length) '0'
    match Amount.ofNat? (Decimal.value (whole ++ fraction ++ missing)) with
    | none => .error (invalid "amount too large" text)
    | some amount => .ok amount

/-! ### Writing -/

/-- Digits without the zeros at their end. -/
def trimZeros (digits : List Char) : List Char :=
  (digits.reverse.dropWhile (· = '0')).reverse

/-- Write an amount with a number of decimals, without zeros at the end.  With no decimals,
or so many that one token is no amount, the plain number is written. -/
def format (amount : Amount) (decimals : UInt8) : String :=
  let places := decimals.toNat
  let unit := Nat.pow 10 places
  if places = 0 ∨ Amount.size ≤ unit then toString amount
  else
    let whole := Decimal.digits (amount.val / unit)
    if amount.val % unit = 0 then String.ofList whole
    else
      String.ofList (whole ++ '.' :: trimZeros (Decimal.padded places (amount.val % unit)))

/-- A number of smallest units with a point before its last places. -/
def fixed (places n : Nat) : List Char :=
  let unit := Nat.pow 10 places
  Decimal.digits (n / unit) ++ '.' :: Decimal.padded places (n % unit)

/-- A share in percent. -/
def percent (bps : UInt64) : String :=
  String.ofList (fixed 2 bps.toNat ++ ['%'])

/-- A health factor as a ratio; the largest one is infinite. -/
def ratio (factor : UInt64) : String :=
  if factor = 18446744073709551615 then "∞" else String.ofList (fixed 4 factor.toNat)

end Custody.Units
