/-
Amounts survive being written and read.

Writing and reading share no code.  The writer divides by one token, fills the remainder up with
zeros at the front and takes the zeros at its end away.  The reader fills up with zeros at the end
and takes all digits for one number.  What joins them is the grammar of numerals: what is written
is a numeral, and `parse_of_numeral` says what is read from one.

This holds as long as one token is an amount.  A token with more decimals has its amounts written
as plain numbers of the smallest unit, which are then read as whole tokens: only zero comes back,
and every other amount is refused.
-/
import Custody.Proofs.Arithmetic
import Custody.Proofs.Numeral

namespace Custody

/-! ### Digits of numbers -/

namespace Decimal

theorem value_digits (n : Nat) : value (digits n) = n := Nat.ofDigitChars_ten_toDigits

theorem digits_ne_nil (n : Nat) : digits n ≠ [] := Nat.toDigits_ne_nil

theorem allDigits_digits (n : Nat) : AllDigits (digits n) := by
  intro c hc
  have hdigit : c.isDigit = true := Nat.isDigit_of_mem_toDigits (by decide) (by decide) hc
  rw [Char.isDigit, Bool.and_eq_true, decide_eq_true_eq, decide_eq_true_eq, ge_iff_le,
    UInt32.le_iff_toNat_le, UInt32.le_iff_toNat_le] at hdigit
  exact isDigit_iff.mpr hdigit

theorem allDigits_zeros (n : Nat) : AllDigits (List.replicate n '0') := by
  intro c hc
  rw [List.eq_of_mem_replicate hc]
  decide

theorem allDigits_padded (width n : Nat) : AllDigits (padded width n) :=
  allDigits_append.mpr ⟨allDigits_zeros _, allDigits_digits n⟩

/-- Zeros at the front change no number. -/
theorem value_padded (width n : Nat) : value (padded width n) = n := by
  rw [padded, value_append, value_zeros, value_digits, Nat.zero_mul, Nat.zero_add]

theorem length_padded {width n : Nat} (hwidth : 0 < width) (hn : n < 10 ^ width) :
    (padded width n).length = width := by
  have hlength : (digits n).length ≤ width :=
    (Nat.length_toDigits_le_iff (by decide) hwidth).mpr hn
  rw [padded, List.length_append, List.length_replicate, Nat.sub_add_cancel hlength]

end Decimal

namespace Units

open Decimal

variable {places n : Nat} {l : List Char}

/-! ### Writing -/

/-- Only zeros are taken away from the end. -/
theorem trimZeros_append (l : List Char) : ∃ k, trimZeros l ++ List.replicate k '0' = l := by
  have hzeros : l.reverse.takeWhile (· = '0') =
      List.replicate (l.reverse.takeWhile (· = '0')).length '0' :=
    List.eq_replicate_of_mem fun c hc => by simpa using List.mem_takeWhile_imp hc
  refine ⟨(l.reverse.takeWhile (· = '0')).length, ?_⟩
  rw [trimZeros, ← List.reverse_replicate, ← hzeros, ← List.reverse_append,
    List.takeWhile_append_dropWhile, List.reverse_reverse]

/-- Without the zeros at its end, a fraction still has its number. -/
theorem numeral_trimZeros {w f : List Char} (hsomething : w ≠ []) (hwhole : AllDigits w)
    (hfraction : AllDigits f) :
    Numeral f.length (w ++ '.' :: trimZeros f) (value w * 10 ^ f.length + value f) := by
  obtain ⟨k, hk⟩ := trimZeros_append f
  have hlength : (trimZeros f).length + k = f.length := by
    rw [← List.length_replicate (n := k) (a := '0'), ← List.length_append, hk]
  have hvalue : value f = value (trimZeros f) * 10 ^ (f.length - (trimZeros f).length) := by
    rw [← hlength, Nat.add_sub_cancel_left, ← value_append_zeros, hk]
  rw [hvalue]
  refine .pointed (fun h => hsomething h.1) hwhole ?_ (Nat.le_of_add_right_le hlength.le)
  rw [← hk] at hfraction
  exact (allDigits_append.mp hfraction).1

/-- A plain number is read as whole tokens. -/
theorem numeral_digits (places n : Nat) : Numeral places (digits n) (n * 10 ^ places) := by
  have h : Numeral places (digits n) (value (digits n) * 10 ^ places) :=
    .whole (digits_ne_nil n) (allDigits_digits n)
  rwa [value_digits] at h

/-- Without a point, an amount is written as the plain number of its smallest units. -/
theorem format_plain (amount : Amount) {decimals : UInt8}
    (hplain : decimals.toNat = 0 ∨ Amount.size ≤ 10 ^ decimals.toNat) :
    (format amount decimals).toList = digits amount.val := by
  have htext : toString amount = String.ofList (digits amount.val) :=
    Nat.toString_eq_ofList_toDigits
  rw [format, Nat.pow_eq, if_pos hplain, htext, String.toList_ofList]

/-- What is written of an amount is one of its numerals, as long as one token is an amount. -/
theorem numeral_format (amount : Amount) {decimals : UInt8} (hdecimals : decimals.toNat ≤ 38) :
    Numeral decimals.toNat (format amount decimals).toList amount.val := by
  by_cases hnone : decimals.toNat = 0
  · have hplain := numeral_digits decimals.toNat amount.val
    rw [hnone, Nat.pow_zero, Nat.mul_one] at hplain
    rwa [format_plain amount (.inl hnone), hnone]
  have hunit : 10 ^ decimals.toNat < Amount.size := Amount.pow_lt_size_iff.mpr hdecimals
  have hparts := Nat.div_add_mod' amount.val (10 ^ decimals.toNat)
  simp only [format, Nat.pow_eq]
  rw [if_neg (not_or.mpr ⟨hnone, Nat.not_le.mpr hunit⟩)]
  split_ifs with hround
  · have hwhole := numeral_digits decimals.toNat (amount.val / 10 ^ decimals.toNat)
    rw [hround, Nat.add_zero] at hparts
    rwa [hparts, ← String.toList_ofList (l := digits _)] at hwhole
  · -- The remainder is below one token, so filled up it has as many digits as there are places.
    have hpointed := numeral_trimZeros (digits_ne_nil (amount.val / 10 ^ decimals.toNat))
      (allDigits_digits _) (allDigits_padded decimals.toNat (amount.val % 10 ^ decimals.toNat))
    rw [length_padded (Nat.pos_of_ne_zero hnone) (Nat.mod_lt _ (Nat.pow_pos (by decide))),
      value_digits, value_padded, hparts] at hpointed
    rwa [String.toList_ofList]

/-! ### Writing and reading -/

/-- A numeral with no white space around it is read as it stands. -/
theorem parse_of_numeral_toList {text : String} {decimals : UInt8}
    (h : Numeral decimals.toNat text.toList n) :
    parse text decimals =
      if hn : n < Amount.size then .ok ⟨n, hn⟩ else .error (invalid "amount too large" text) :=
  parse_of_numeral (numeral_trim_iff.mpr ⟨_, ⟨[], [], (List.append_nil _).symm, nofun⟩, h⟩)

/-- An amount that is written with the decimals of its token is read back as it was, as long as
one token is an amount.  Beyond this only zero is; every other amount comes back as a number that
is refused for its size. -/
theorem amounts_survive_writing (amount : Amount) (decimals : UInt8) :
    parse (format amount decimals) decimals =
      if decimals.toNat ≤ 38 ∨ amount = 0 then .ok amount
      else .error (.invalidParameter "amount" s!"amount too large: {format amount decimals}") := by
  by_cases hdecimals : decimals.toNat ≤ 38
  · rw [parse_of_numeral_toList (numeral_format amount hdecimals), dif_pos amount.isLt,
      if_pos (.inl hdecimals)]
  have hunit : Amount.size ≤ 10 ^ decimals.toNat :=
    Nat.le_of_not_lt (mt Amount.pow_lt_size_iff.mp hdecimals)
  have hplain := numeral_digits decimals.toNat amount.val
  rw [← format_plain amount (.inr hunit)] at hplain
  rw [parse_of_numeral_toList hplain]
  by_cases hzero : amount = 0
  · have hval : amount.val * 10 ^ decimals.toNat = amount.val := by
      rw [Amount.eq_zero_iff.mp hzero, Nat.zero_mul]
    rw [dif_pos (hval.trans_lt amount.isLt), if_pos (.inr hzero)]
    exact congrArg Except.ok (Amount.ext hval)
  · rw [if_neg (not_or.mpr ⟨hdecimals, hzero⟩), dif_neg]
    · rfl
    · have hone : 1 ≤ amount.val := Amount.pos_of_ne_zero hzero
      exact Nat.not_lt.mpr (hunit.trans (Nat.le_mul_of_pos_left _ hone))

end Units

end Custody
