/-
Accounts and tokens are named by addresses of twenty bytes.

The text of an address is `0x` and forty lower-case digits.  Reading also takes
upper-case digits and a text without the `0x`.  Addresses are ordered by their bytes, the
first byte first, and that is the order of their texts too.
-/
import Custody.Text.Hex
import Custody.Digest.Sha256

namespace Custody

/-- Twenty bytes that name an account or a token. -/
structure Address where
  bytes : List UInt8
  size : bytes.length = 20 := by decide
deriving DecidableEq

namespace Address

/-! ### Order -/

instance : Ord Address := ⟨compareOn bytes⟩

instance : Std.TransOrd Address := inferInstanceAs (Std.TransCmp (compareOn bytes))

instance : Std.LawfulEqOrd Address where
  compare_self := fun {a} => by show compare a.bytes a.bytes = .eq; simp
  eq_of_compare := fun {a b} h => by
    have hb : a.bytes = b.bytes := Std.LawfulEqOrd.eq_of_compare h
    cases a; cases b; simp_all

/-! ### Making addresses -/

/-- The address of twenty equal bytes. -/
def filled (byte : UInt8) : Address :=
  ⟨List.replicate 20 byte, by simp⟩

/-- The address that names nobody. -/
def zero : Address := filled 0

/-- Whether every byte is zero. -/
def isZero (a : Address) : Bool :=
  a == zero

/-- The address a label stands for: the first twenty bytes of the label's digest. -/
def ofLabel (label : String) : Address :=
  ⟨(Sha256.digest (Hex.textBytes label)).take 20, by simp [Sha256.length_digest]⟩

/-! ### Text -/

/-- `0x` and forty lower-case digits. -/
def hexChars (a : Address) : List Char :=
  '0' :: 'x' :: Hex.encode a.bytes

/-- The text of an address. -/
def toHex (a : Address) : String :=
  String.ofList a.hexChars

/-- The `0x` and the first eight digits. -/
def short (a : Address) : String :=
  String.ofList (a.hexChars.take 10)

instance : ToString Address := ⟨toHex⟩

/-- The form shown to people who debug. -/
def debugText (a : Address) : String :=
  "Address(" ++ a.short ++ ")"

/-- Why a text or a byte string is no address. -/
inductive Fault where
  /-- The text is not base-16. -/
  | notHex (fault : Hex.Fault)
  /-- There are not twenty bytes but this many. -/
  | wrongSize (size : Nat)
deriving DecidableEq, Repr

/-- The wording of a fault. -/
def Fault.message : Fault → String
  | .notHex fault => fault.message
  | .wrongSize size => "expected 20 bytes, got " ++ toString size

/-- The address of a byte string, which has to have twenty bytes. -/
def ofBytes (bytes : List UInt8) : Except Fault Address :=
  if h : bytes.length = 20 then .ok ⟨bytes, h⟩ else .error (.wrongSize bytes.length)

/-- The text without a leading `0x`; a second one stays. -/
def dropMark : List UInt8 → List UInt8
  | 48 :: 120 :: rest => rest
  | text => text

/-- The address whose text has these bytes. -/
def ofTextBytes (text : List UInt8) : Except Fault Address :=
  match Hex.decode (dropMark text) with
  | .error fault => .error (.notHex fault)
  | .ok bytes => ofBytes bytes

/-- Read the text of an address. -/
def ofHex (text : String) : Except Fault Address :=
  ofTextBytes (Hex.textBytes text)

end Address

end Custody
