/-
Addresses are read back from their text.

A byte is written as two digits and a digit as one byte of text, so the text of twenty bytes is
forty bytes that are read in the pairs in which they were written.  The two bytes in front of them
are the mark that reading drops.
-/
import Custody.Address

namespace Custody

namespace Hex

/-- The bytes of a text are those of its characters, one after another. -/
theorem textBytes_ofList (l : List Char) :
    textBytes (String.ofList l) = l.flatMap String.utf8EncodeChar := by
  unfold textBytes
  rw [String.toUTF8_eq_toByteArray, String.toByteArray_ofList, List.utf8Encode]
  simp

/-- A digit is one byte, and that byte has the value of the digit. -/
theorem digit_bytes : ∀ n < 16,
    String.utf8EncodeChar (digit n) = [UInt8.ofNat (digit n).toNat] ∧
      value? (UInt8.ofNat (digit n).toNat) = some n := by
  decide

/-- The bytes of the digits of some bytes. -/
def written (bytes : List UInt8) : List UInt8 := (encode bytes).flatMap String.utf8EncodeChar

/-- Each byte is written as the byte of its high digit and the byte of its low digit. -/
theorem written_cons (b : UInt8) (rest : List UInt8) :
    written (b :: rest) = UInt8.ofNat (digit (b.toNat / 16)).toNat ::
      UInt8.ofNat (digit (b.toNat % 16)).toNat :: written rest := by
  have hhigh : b.toNat / 16 < 16 := by
    have := b.toNat_lt
    omega
  have hlow : b.toNat % 16 < 16 := Nat.mod_lt _ (by decide)
  simp only [written, encode, List.flatMap_cons, (digit_bytes _ hhigh).1, (digit_bytes _ hlow).1,
    List.cons_append, List.nil_append]

theorem length_written (bytes : List UInt8) : (written bytes).length = 2 * bytes.length := by
  induction bytes with
  | nil => rfl
  | cons b rest ih =>
      rw [written_cons, List.length_cons, List.length_cons, ih, List.length_cons]
      omega

theorem decodePairs_written (bytes : List UInt8) (position : Nat) :
    decodePairs position (written bytes) = .ok bytes := by
  induction bytes generalizing position with
  | nil => rfl
  | cons b rest ih =>
      have hbyte : b.toNat < 256 := b.toNat_lt
      have hhigh : b.toNat / 16 < 16 := by omega
      have hlow : b.toNat % 16 < 16 := by omega
      have hsum : UInt8.ofNat (16 * (b.toNat / 16) + b.toNat % 16) = b := by
        rw [Nat.div_add_mod, UInt8.ofNat_toNat]
      rw [written_cons, decodePairs]
      simp only [(digit_bytes _ hhigh).2, (digit_bytes _ hlow).2, ih, hsum]

/-- **Bytes are read back from their digits.** -/
theorem decode_written (bytes : List UInt8) : decode (written bytes) = .ok bytes := by
  have heven : ¬ (written bytes).length % 2 = 1 := by
    rw [length_written]
    omega
  unfold decode
  rw [if_neg heven]
  exact decodePairs_written bytes 0

end Hex

namespace Address

/-- The text of an address is its mark and its digits. -/
theorem textBytes_toHex (a : Address) :
    Hex.textBytes a.toHex = 48 :: 120 :: Hex.written a.bytes := by
  unfold toHex
  rw [Hex.textBytes_ofList]
  rfl

theorem length_textBytes_toHex (a : Address) : (Hex.textBytes a.toHex).length = 42 := by
  rw [textBytes_toHex, List.length_cons, List.length_cons, Hex.length_written, a.size]

/-- **An address is read back from its text.** -/
theorem ofHex_toHex (a : Address) : ofHex a.toHex = .ok a := by
  have hdigits : Hex.decode (dropMark (Hex.textBytes a.toHex)) = .ok a.bytes := by
    rw [textBytes_toHex]
    exact Hex.decode_written a.bytes
  unfold ofHex ofTextBytes
  rw [hdigits]
  exact dif_pos a.size

end Address

end Custody
