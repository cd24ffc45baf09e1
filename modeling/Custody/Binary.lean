/-
The byte form of stored values.

Numbers have a fixed width and their lowest byte comes first.  Texts and lists are
preceded by their length in eight bytes, an optional value by a flag, an alternative
by its position in four bytes.  Nothing else is written, so a value of known type can
be read from the front of a byte string and the rest handed on.

A map is a list of entries.  It is written by ascending key and read in any order; of
equal keys the last one counts.  An address is written as its text.
-/
import Custody.Error
import Custody.Table

namespace Custody

namespace Binary

/-- Why a byte string holds no value of the wanted type. -/
inductive Fault where
  /-- The bytes end too early. -/
  | endOfBytes
  /-- A flag is neither zero nor one. -/
  | badFlag
  /-- There is no alternative at this position. -/
  | badAlternative
  /-- A text is not UTF-8. -/
  | badText
  /-- A text is no address. -/
  | badAddress (fault : Address.Fault)
deriving DecidableEq

/-- The wording of a fault. -/
def Fault.message : Fault → String
  | endOfBytes => "unexpected end of bytes"
  | badFlag => "invalid flag"
  | badAlternative => "invalid alternative"
  | badText => "invalid text"
  | badAddress fault => (Error.badAddress fault).message

/-- Reads a value from the front of a byte string. -/
abbrev Reader := StateT (List UInt8) (Except Fault)

end Binary

/-- Values with a byte form. -/
class Binary (α : Type) where
  encode : α → List UInt8
  decode : Binary.Reader α

namespace Binary

variable {α β : Type}

/-! ### Numbers -/

/-- The lowest `width` bytes of a number, the lowest first. -/
def littleEndian : (width : Nat) → Nat → List UInt8
  | 0, _ => []
  | width + 1, n => UInt8.ofNat n :: littleEndian width (n / 256)

/-- The number of some bytes, the lowest first. -/
def ofLittleEndian : List UInt8 → Nat
  | [] => 0
  | b :: rest => b.toNat + 256 * ofLittleEndian rest

/-- The first `count` bytes and the rest, if there are that many. -/
def split : (count : Nat) → List UInt8 → Option (List UInt8 × List UInt8)
  | 0, bytes => some ([], bytes)
  | _ + 1, [] => none
  | count + 1, b :: rest =>
    match split count rest with
    | none => none
    | some (front, rest) => some (b :: front, rest)

/-- Read this many bytes. -/
def take (count : Nat) : Reader (List UInt8) := fun bytes =>
  match split count bytes with
  | none => .error .endOfBytes
  | some (front, rest) => .ok (front, rest)

/-- Read a number of this many bytes. -/
def number (width : Nat) : Reader Nat := do
  return ofLittleEndian (← take width)

instance : Binary UInt64 where
  encode n := littleEndian 8 n.toNat
  decode := do return UInt64.ofNat (← number 8)

instance : Binary Amount where
  encode n := littleEndian 16 n.val
  decode := do
    let n ← number 16
    return ⟨n % Amount.size, Nat.mod_lt _ (by decide)⟩

/-- A flag is one byte. -/
def flag (b : Bool) : List UInt8 := [if b then 1 else 0]

/-- Read a flag. -/
def readFlag : Reader Bool := do
  match ← number 1 with
  | 0 => return false
  | 1 => return true
  | _ => throw .badFlag

instance : Binary Bool := ⟨flag, readFlag⟩

/-! ### Texts -/

/-- A length in eight bytes. -/
def count (n : Nat) : List UInt8 := littleEndian 8 n

/-- Bytes preceded by their number. -/
def sized (bytes : List UInt8) : List UInt8 :=
  count bytes.length ++ bytes

/-- Read the bytes of a text. -/
def textBytes : Reader String := do
  let bytes ← take (← number 8)
  match String.fromUTF8? ⟨bytes.toArray⟩ with
  | none => throw .badText
  | some text => return text

instance : Binary String where
  encode text := sized (Hex.textBytes text)
  decode := textBytes

instance : Binary Address where
  encode a := sized (Hex.textBytes a.toHex)
  decode := do
    match Address.ofHex (← textBytes) with
    | .error fault => throw (.badAddress fault)
    | .ok a => return a

/-! ### Composed values -/

instance [Binary α] [Binary β] : Binary (α × β) where
  encode p := Binary.encode p.1 ++ Binary.encode p.2
  decode := do return (← Binary.decode, ← Binary.decode)

instance [Binary α] : Binary (Option α) where
  encode
    | none => flag false
    | some a => flag true ++ Binary.encode a
  decode := do
    if ← readFlag then return some (← Binary.decode) else return none

/-- Read this many values. -/
def many [Binary α] : Nat → Reader (List α)
  | 0 => return []
  | n + 1 => do
    let a ← Binary.decode
    return a :: (← many n)

instance [Binary α] : Binary (List α) where
  encode l := count l.length ++ l.flatMap Binary.encode
  decode := do many (← number 8)

instance [Binary α] : Binary (Array α) where
  encode l := Binary.encode l.toList
  decode := do return (← (Binary.decode : Reader (List α))).toArray

instance [Ord α] [Std.TransOrd α] [Binary α] [Binary β] : Binary (Table α β) where
  encode t := Binary.encode t.entries
  decode := do return Table.ofList (← Binary.decode)

/-- A set is written as the list of its members. -/
instance [Ord α] [Std.TransOrd α] [Binary α] : Binary (KeySet α) where
  encode s := Binary.encode (Table.keys s)
  decode := do return KeySet.ofList (← Binary.decode)

/-! ### Alternatives -/

/-- The position of an alternative in four bytes. -/
def position (n : Nat) : List UInt8 := littleEndian 4 n

instance : Binary Role where
  encode r := position r.index
  decode := do
    match Role.ofIndex? (← number 4) with
    | none => throw .badAlternative
    | some r => return r

/-! ### Whole byte strings -/

/-- Read a value from a byte string; what follows the value is ignored. -/
def read [Binary α] (bytes : List UInt8) : Except Error α :=
  match (Binary.decode : Reader α).run bytes with
  | .error fault => .error (.deserialization fault.message)
  | .ok (a, _) => .ok a

end Binary

end Custody
