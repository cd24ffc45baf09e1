/-
Which texts name an address, and which address they name.

A digit stands for its place in a row of sixteen, of which there is one for each case, and two
digits spell a byte.  This is a grammar of characters.  The reader looks at bytes: it drops a mark,
asks for an even number of bytes, and only then for digits.  Both agree because a byte of a digit is
never part of a longer character, so a text of which every byte is a digit has one byte for each
character.

The digits stand in each row in the order of the characters.  So texts that are written are in the
order of the bytes that they were written from.
-/
import Custody.Json.Decode
import Custody.Proofs.Binary
import Custody.Proofs.Json

namespace Custody

namespace Hex

variable {c : Char} {b : UInt8} {n position : Nat} {text : List Char} {bytes rest : List UInt8}

/-! ### A grammar -/

/-- A digit of either case and its value, which is its place among the digits. -/
def Denotes (c : Char) (n : Nat) : Prop :=
  "0123456789abcdef".toList[n]? = some c ∨ "0123456789ABCDEF".toList[n]? = some c

instance (c : Char) (n : Nat) : Decidable (Denotes c n) := inferInstanceAs (Decidable (_ ∨ _))

/-- A text that gives for each byte the digit of its high half and the digit of its low half. -/
inductive Spells : List Char → List UInt8 → Prop
  | nil : Spells [] []
  | cons {high low : Char} {b : UInt8} {text : List Char} {bytes : List UInt8} :
      Denotes high (b.toNat / 16) → Denotes low (b.toNat % 16) → Spells text bytes →
      Spells (high :: low :: text) (b :: bytes)

theorem Spells.length (h : Spells text bytes) : text.length = 2 * bytes.length := by
  induction h with
  | nil => rfl
  | cons _ _ _ ih =>
      rw [List.length_cons, List.length_cons, List.length_cons, ih]
      omega

/-! ### Digits as bytes -/

theorem Denotes.lt (h : Denotes c n) : n < 16 := by
  rcases h with h | h
  all_goals exact (List.getElem?_eq_some_iff.mp h).1

/-- A digit is one byte, and that byte has the value of the digit. -/
theorem Denotes.encoded (h : Denotes c n) :
    String.utf8EncodeChar c = [UInt8.ofNat c.toNat] ∧ value? (UInt8.ofNat c.toNat) = some n := by
  have hall : ∀ n < 16, ∀ row ∈ ["0123456789abcdef", "0123456789ABCDEF"],
      row.toList[n]?.all (fun c => String.utf8EncodeChar c = [UInt8.ofNat c.toNat] ∧
        value? (UInt8.ofNat c.toNat) = some n) = true := by decide
  have hrow : ∀ row ∈ ["0123456789abcdef", "0123456789ABCDEF"], row.toList[n]? = some c →
      String.utf8EncodeChar c = [UInt8.ofNat c.toNat] ∧
        value? (UInt8.ofNat c.toNat) = some n := by
    intro row hrow hc
    have hdigit := hall n h.lt row hrow
    rw [hc] at hdigit
    exact of_decide_eq_true hdigit
  rcases h with h | h
  · exact hrow _ (by simp) h
  · exact hrow _ (by simp) h

theorem denotes_of_value? (hc : c.toNat < 128) (h : value? (UInt8.ofNat c.toNat) = some n) :
    Denotes c n := by
  have hall : ∀ m < 128, ∀ n ∈ value? (UInt8.ofNat m), Denotes (Char.ofNat m) n := by decide
  have hdenotes := hall c.toNat hc n h
  rwa [Char.ofNat_toNat] at hdenotes

theorem value?_lt (h : value? b = some n) : b.toNat < 128 ∧ n < 16 := by
  simp only [value?] at h
  split_ifs at h <;> simp only [Option.some.injEq] at h <;> omega

/-- The first byte of a character is all of it, unless it is none of the first 128. -/
theorem utf8EncodeChar_eq_cons (c : Char) : ∃ b rest, String.utf8EncodeChar c = b :: rest ∧
    (b.toNat < 128 → rest = [] ∧ b = UInt8.ofNat c.toNat ∧ c.toNat < 128) := by
  unfold String.utf8EncodeChar
  simp only
  split_ifs with hone htwo hthree
  · exact ⟨_, _, rfl, fun _ => ⟨rfl, rfl, Nat.lt_succ_of_le hone⟩⟩
  all_goals
    refine ⟨_, _, rfl, fun hlow => ?_⟩
    rw [UInt8.toNat_ofNat'] at hlow
    omega

/-- So a byte below 128 is a character, and the bytes after it are those of the text after it. -/
theorem ascii_of_flatMap (hbytes : (c :: text).flatMap String.utf8EncodeChar = b :: rest)
    (hb : b.toNat < 128) :
    c.toNat = b.toNat ∧ text.flatMap String.utf8EncodeChar = rest := by
  obtain ⟨b', more, hc, hascii⟩ := utf8EncodeChar_eq_cons c
  rw [List.flatMap_cons, hc, List.cons_append, List.cons.injEq] at hbytes
  obtain ⟨rfl, hrest⟩ := hbytes
  obtain ⟨rfl, rfl, hlt⟩ := hascii hb
  refine ⟨?_, hrest⟩
  rw [UInt8.toNat_ofNat']
  omega

/-- A byte with a value is a digit. -/
theorem digit_of_value? (hbytes : (c :: text).flatMap String.utf8EncodeChar = b :: rest)
    (h : value? b = some n) : Denotes c n ∧ text.flatMap String.utf8EncodeChar = rest := by
  obtain ⟨hc, hrest⟩ := ascii_of_flatMap hbytes (value?_lt h).1
  refine ⟨denotes_of_value? ?_ ?_, hrest⟩
  · rw [hc]
    exact (value?_lt h).1
  · rwa [hc, UInt8.ofNat_toNat]

/-! ### Reading -/

/-- Every digit is one byte. -/
theorem Spells.length_encoded (h : Spells text bytes) :
    (text.flatMap String.utf8EncodeChar).length = text.length := by
  induction h with
  | nil => rfl
  | cons hhigh hlow _ ih =>
      simp only [List.flatMap_cons, hhigh.encoded.1, hlow.encoded.1, List.length_append, ih,
        List.length_cons, List.length_nil]
      omega

theorem decodePairs_of_spells (h : Spells text bytes) :
    decodePairs position (text.flatMap String.utf8EncodeChar) = .ok bytes := by
  induction h generalizing position with
  | nil => rfl
  | @cons high low b text bytes hhigh hlow _ ih =>
      have hsum : UInt8.ofNat (16 * (b.toNat / 16) + b.toNat % 16) = b := by
        rw [Nat.div_add_mod, UInt8.ofNat_toNat]
      simp only [List.flatMap_cons, hhigh.encoded.1, hlow.encoded.1, List.cons_append,
        List.nil_append, decodePairs, hhigh.encoded.2, hlow.encoded.2, ih, hsum]

/-- What is read is read from a pair of digits at a time. -/
theorem decodePairs_eq_ok {l : List UInt8} (h : decodePairs position l = .ok bytes) :
    (l = [] ∧ bytes = []) ∨ ∃ b b' more m n bytes', l = b :: b' :: more ∧
      value? b = some m ∧
      value? b' = some n ∧ decodePairs (position + 2) more = .ok bytes' ∧
      bytes = UInt8.ofNat (16 * m + n) :: bytes' := by
  match l with
  | [] =>
      cases h
      exact .inl ⟨rfl, rfl⟩
  | [_] => cases h
  | b :: b' :: more =>
      rw [decodePairs] at h
      split at h
      · cases h
      next m hm =>
        split at h
        · cases h
        next n hn =>
          split at h
          · cases h
          next bytes' hmore =>
            cases h
            exact .inr ⟨b, b', more, m, n, bytes', rfl, hm, hn, hmore, rfl⟩

theorem spells_of_decodePairs : ∀ (text : List Char) (bytes : List UInt8) (position : Nat),
    decodePairs position (text.flatMap String.utf8EncodeChar) = .ok bytes → Spells text bytes
  | [], _, _, h => by
      cases h
      exact .nil
  | c :: text, bytes, position, h => by
      obtain ⟨hnil, -⟩ | ⟨b, b', more, m, n, bytes', hbytes, hm, hn, hmore, rfl⟩ :=
        decodePairs_eq_ok h
      · obtain ⟨b, rest, hc, -⟩ := utf8EncodeChar_eq_cons c
        rw [List.flatMap_cons, hc] at hnil
        cases hnil
      obtain ⟨hhigh, htext⟩ := digit_of_value? hbytes hm
      match text with
      | [] => cases htext
      | d :: text =>
          obtain ⟨hlow, htext⟩ := digit_of_value? htext hn
          have hhalves : (UInt8.ofNat (16 * m + n)).toNat / 16 = m ∧
              (UInt8.ofNat (16 * m + n)).toNat % 16 = n := by
            have hm := hhigh.lt
            have hn := hlow.lt
            rw [UInt8.toNat_ofNat']
            omega
          rw [← htext] at hmore
          refine .cons ?_ ?_ (spells_of_decodePairs text bytes' (position + 2) hmore)
          · rwa [hhalves.1]
          · rwa [hhalves.2]

/-- **Exactly the texts of the grammar are read**, and as what they spell. -/
theorem decode_eq_ok_iff :
    decode (text.flatMap String.utf8EncodeChar) = .ok bytes ↔ Spells text bytes := by
  unfold decode
  constructor
  · intro h
    split_ifs at h
    exact spells_of_decodePairs text bytes 0 h
  · intro h
    have hread : decodePairs 0 _ = .ok bytes := decodePairs_of_spells h
    have heven : ¬ (text.flatMap String.utf8EncodeChar).length % 2 = 1 := by
      rw [h.length_encoded, h.length]
      omega
    rw [if_neg heven, hread]

/-! ### Order -/

theorem digit_lt_digit : ∀ m < 16, ∀ n < 16, (digit m < digit n ↔ m < n) ∧
    (digit m = digit n ↔ m = n) := by
  decide

/-- **The texts of two byte strings are in the order of the byte strings.** -/
theorem encode_lt_encode (xs ys : List UInt8) : encode xs < encode ys ↔ xs < ys := by
  induction xs generalizing ys with
  | nil => cases ys <;> simp [encode]
  | cons x xs ih =>
      cases ys with
      | nil => simp [encode]
      | cons y ys =>
          have hx := x.toNat_lt
          have hy := y.toNat_lt
          have hhigh := digit_lt_digit (x.toNat / 16) (by omega) (y.toNat / 16) (by omega)
          have hlow := digit_lt_digit (x.toNat % 16) (by omega) (y.toNat % 16) (by omega)
          simp only [encode, List.cons_lt_cons_iff, hhigh.1, hhigh.2, hlow.1, hlow.2, ih,
            UInt8.lt_iff_toNat_lt, ← UInt8.toNat_inj]
          by_cases hrest : xs < ys
          · simp only [hrest, and_true]
            omega
          · simp only [hrest, and_false, or_false]
            omega

end Hex

namespace Address

/-- Addresses are ordered by their bytes. -/
theorem compare_eq_lt_iff (a b : Address) : compare a b = .lt ↔ a.bytes < b.bytes := by
  have hlists : ∀ xs ys : List UInt8, List.compareLex compare xs ys = .lt ↔ xs < ys := by
    intro xs
    induction xs with
    | nil => rintro (_ | ⟨y, ys⟩) <;> simp [List.compareLex]
    | cons x xs ih =>
        rintro (_ | ⟨y, ys⟩)
        · simp [List.compareLex]
        · rw [List.compareLex_cons_cons, Ordering.then_eq_lt, ih, List.cons_lt_cons_iff,
            Std.compare_eq_lt, Std.compare_eq_iff_eq]
  exact hlists a.bytes b.bytes

theorem toHex_lt_toHex (a b : Address) : a.toHex < b.toHex ↔ a.bytes < b.bytes := by
  rw [String.lt_iff, toHex, toHex, String.toList_ofList, String.toList_ofList, hexChars,
    hexChars, List.cons_lt_cons_self, List.cons_lt_cons_self, Hex.encode_lt_encode]

/-- The text without the mark that may stand in front of the digits. -/
def unmarked : List Char → List Char
  | '0' :: 'x' :: digits => digits
  | text => text

theorem dropMark_flatMap (text : List Char) :
    dropMark (text.flatMap String.utf8EncodeChar) =
      (unmarked text).flatMap String.utf8EncodeChar := by
  unfold dropMark
  split
  · next rest h =>
    -- The two bytes of a mark are its two characters.
    obtain ⟨c, d, digits, rfl⟩ : ∃ c d digits, text = c :: d :: digits := by
      match text with
      | [] => cases h
      | [c] => cases (Hex.ascii_of_flatMap h (by decide)).2
      | c :: d :: digits => exact ⟨c, d, digits, rfl⟩
    obtain ⟨hc, hmore⟩ := Hex.ascii_of_flatMap h (by decide)
    obtain ⟨hd, hdigits⟩ := Hex.ascii_of_flatMap hmore (by decide)
    obtain rfl : c = '0' := Char.toNat_inj.mp hc
    obtain rfl : d = 'x' := Char.toNat_inj.mp hd
    exact hdigits.symm
  · next hmark =>
    unfold unmarked
    split
    · exact absurd rfl (hmark _)
    · rfl

theorem ofBytes_eq_ok_iff {bytes : List UInt8} {a : Address} :
    ofBytes bytes = .ok a ↔ bytes = a.bytes := by
  unfold ofBytes
  constructor
  · intro h
    split_ifs at h
    cases h
    rfl
  · rintro rfl
    exact dif_pos a.size

/-- **An address is read from its forty digits**, of either case and behind at most one mark. -/
theorem ofHex_eq_ok_iff (text : String) (a : Address) : ofHex text = .ok a ↔
    (unmarked text.toList).length = 40 ∧ Hex.Spells (unmarked text.toList) a.bytes := by
  have hbytes : dropMark (Hex.textBytes text) =
      (unmarked text.toList).flatMap String.utf8EncodeChar := by
    rw [← dropMark_flatMap, ← Hex.textBytes_ofList, String.ofList_toList]
  have hread : ofHex text = .ok a ↔ Hex.decode (dropMark (Hex.textBytes text)) = .ok a.bytes := by
    unfold ofHex ofTextBytes
    cases hdecode : Hex.decode (dropMark (Hex.textBytes text)) with
    | error fault => simp
    | ok bytes => simp [ofBytes_eq_ok_iff]
  rw [hread, hbytes, Hex.decode_eq_ok_iff]
  refine ⟨fun h => ⟨?_, h⟩, fun h => h.2⟩
  rw [h.length, a.size]

/-- **The text of an address is a faithful form of it.**  An address is read exactly from its forty
digits in either case, with or without one mark in front of them; its own text and what is stored of
it as JSON and as bytes are read back as it; and texts are in the order of the addresses. -/
theorem text_faithful (a : Address) :
    (∀ text : String, ofHex text = .ok a ↔
      (unmarked text.toList).length = 40 ∧ Hex.Spells (unmarked text.toList) a.bytes) ∧
    ofHex a.toHex = .ok a ∧
    (Json.ofText? (Json.text a.toHex).compact).bind Json.toAddress? = some a ∧
    Binary.read (Binary.encode a) = .ok a ∧
    ∀ b : Address, compare a b = .lt ↔ a.toHex < b.toHex := by
  refine ⟨fun text => ofHex_eq_ok_iff text a, ofHex_toHex a, ?_, ?_, ?_⟩
  · have hread : Json.ofText? (Json.text a.toHex).pretty = some (.text a.toHex) :=
      Json.ofText?_pretty rfl
    have haddress : (Json.text a.toHex).toAddress? = some a := by
      simp [Json.toAddress?, Json.toText?, Json.text, Json.addressOf?, ofHex_toHex, Except.toOption]
    have hsame : (Json.text a.toHex).compact = (Json.text a.toHex).pretty := rfl
    rw [hsame, hread, Option.bind_some, haddress]
  · exact Binary.read_of_reads (Binary.kept_address a)
  · intro b
    rw [compare_eq_lt_iff, toHex_lt_toHex]

end Address

end Custody
