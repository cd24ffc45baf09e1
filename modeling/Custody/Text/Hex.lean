/-
Base-16 text.

A byte is written as two lower-case digits.  Reading accepts digits of either case
and works on the bytes of the text, so a fault can say at which byte reading
stopped.  A text of odd length is refused before any digit is looked at, which is
why `decode` tests the length first and walks the pairs afterwards.
-/

namespace Custody.Hex

/-! ### Writing -/

/-- The lower-case digit of a value below sixteen. -/
def digit (n : Nat) : Char :=
  if n < 10 then Char.ofNat (48 + n) else Char.ofNat (87 + n)

/-- Two digits for each byte, the high half first. -/
def encode : List UInt8 → List Char
  | [] => []
  | b :: rest => digit (b.toNat / 16) :: digit (b.toNat % 16) :: encode rest

/-- The digits of a byte string as text. -/
def toText (bytes : List UInt8) : String :=
  String.ofList (encode bytes)

/-! ### Reading -/

/-- Why a text is not base-16. -/
inductive Fault where
  /-- The text has an odd number of bytes. -/
  | oddLength
  /-- The byte at this position is not a digit. -/
  | badByte (byte : UInt8) (position : Nat)
deriving DecidableEq, Repr

/-- The value of a digit, in either case. -/
def value? (b : UInt8) : Option Nat :=
  let n := b.toNat
  if 48 ≤ n ∧ n ≤ 57 then some (n - 48)
  else if 97 ≤ n ∧ n ≤ 102 then some (n - 87)
  else if 65 ≤ n ∧ n ≤ 70 then some (n - 55)
  else none

/-- Read digits in pairs; `position` is the index of the first byte. -/
def decodePairs (position : Nat) : List UInt8 → Except Fault (List UInt8)
  | [] => .ok []
  | [_] => .error .oddLength
  | high :: low :: rest =>
    match value? high with
    | none => .error (.badByte high position)
    | some h =>
      match value? low with
      | none => .error (.badByte low (position + 1))
      | some l =>
        match decodePairs (position + 2) rest with
        | .error fault => .error fault
        | .ok bytes => .ok (UInt8.ofNat (16 * h + l) :: bytes)

/-- Read a base-16 text given as bytes. -/
def decode (text : List UInt8) : Except Fault (List UInt8) :=
  if text.length % 2 = 1 then .error .oddLength else decodePairs 0 text

/-! ### Wording of a fault -/

/-- The bytes of a text. -/
def textBytes (text : String) : List UInt8 :=
  text.toUTF8.data.toList

/-- Lower-case digits of a number below 256 without leading zeros. -/
def shortDigits (n : Nat) : List Char :=
  if n < 16 then [digit n] else [digit (n / 16), digit (n % 16)]

/-- A byte as a character between quotes.  Control characters, the no-break space
and the soft hyphen are escaped by number, a double quote is not escaped. -/
def quoted (byte : UInt8) : String :=
  let n := byte.toNat
  let inner :=
    if n = 0 then "\\0"
    else if n = 9 then "\\t"
    else if n = 10 then "\\n"
    else if n = 13 then "\\r"
    else if n = 39 then "\\'"
    else if n = 92 then "\\\\"
    else if n < 32 ∨ (127 ≤ n ∧ n ≤ 160) ∨ n = 173 then
      "\\u\x7b" ++ String.ofList (shortDigits n) ++ "\x7d"
    else String.singleton (Char.ofNat n)
  "'" ++ inner ++ "'"

/-- The wording of a fault. -/
def Fault.message : Fault → String
  | .oddLength => "Odd number of digits"
  | .badByte byte position =>
    "Invalid character " ++ quoted byte ++ " at position " ++ toString position

end Custody.Hex
