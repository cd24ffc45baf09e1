/-
Which texts are amounts, and which amounts they are.

An amount is written in whole tokens: digits, or digits on both sides of a point, with no more of
them behind it than the token has decimals.  This is written down here as a grammar that knows
nothing of how a text is read, and each numeral of it has its number.

Reading goes another way.  It cuts at the first point, counts the bytes behind the point before it
has looked at them, asks for digits last, and then fills up with zeros what is missing and takes
all of it for one number.  That this accepts the grammar and nothing else rests on two facts about
digits: none of them is a point, and each of them is one byte.
-/
import Mathlib.Algebra.Group.Nat.Defs
import Mathlib.Data.List.TakeWhile
import Custody.Units

namespace Custody

/-! ### Digits -/

namespace Decimal

variable {c : Char} {l m : List Char}

theorem isDigit_iff : isDigit c = true ↔ 48 ≤ c.toNat ∧ c.toNat ≤ 57 := by
  simp only [isDigit, Bool.and_eq_true, decide_eq_true_eq]

theorem ne_point_of_isDigit (h : isDigit c = true) : c ≠ '.' := by
  rintro rfl
  exact absurd h (by decide)

/-- Every character is a digit. -/
def AllDigits (l : List Char) : Prop := ∀ c ∈ l, isDigit c = true

theorem allDigits_append : AllDigits (l ++ m) ↔ AllDigits l ∧ AllDigits m :=
  List.forall_mem_append

theorem all_isDigit_iff : l.all isDigit = true ↔ AllDigits l := List.all_eq_true

theorem value_append (l m : List Char) : value (l ++ m) = value l * 10 ^ m.length + value m := by
  have hvalue : ∀ k : List Char, value k = Nat.ofDigitChars 10 k 0 := fun _ => rfl
  rw [hvalue, hvalue, hvalue, Nat.ofDigitChars_append, Nat.ofDigitChars_eq_ofDigitChars_zero,
    Nat.mul_comm]

theorem value_zeros (n : Nat) : value (List.replicate n '0') = 0 := by
  have hvalue : value (List.replicate n '0') = Nat.ofDigitChars 10 (List.replicate n '0') 0 := rfl
  rw [hvalue, Nat.ofDigitChars_replicate_zero, Nat.mul_zero]

/-- Zeros at the end shift a number. -/
theorem value_append_zeros (l : List Char) (n : Nat) :
    value (l ++ List.replicate n '0') = value l * 10 ^ n := by
  rw [value_append, value_zeros, List.length_replicate, Nat.add_zero]

end Decimal

/-! ### White space -/

namespace Blank

open Decimal

variable {c : Char} {text body front back : List Char}

theorem not_isBlank_of_isDigit (h : isDigit c = true) : ¬ isBlank c = true := by
  rw [isDigit_iff] at h
  simp [isBlank, ranges]
  omega

/-- A text is another one with nothing but white space around it. -/
def Surrounds (text body : List Char) : Prop :=
  ∃ front back, text = front ++ body ++ back ∧ ∀ c ∈ front ++ back, isBlank c = true

/-- Nothing but white space is trimmed. -/
theorem surrounds_trim (text : List Char) : Surrounds text (trim text) := by
  refine ⟨text.takeWhile isBlank, ((text.dropWhile isBlank).reverse.takeWhile isBlank).reverse,
    ?_, ?_⟩
  · rw [trim, List.append_assoc, ← List.reverse_append, List.takeWhile_append_dropWhile,
      List.reverse_reverse, List.takeWhile_append_dropWhile]
  · intro c hc
    rcases List.mem_append.mp hc with hfront | hback
    · exact List.mem_takeWhile_imp hfront
    · exact List.mem_takeWhile_imp (List.mem_reverse.mp hback)

/-- Leading white space is dropped, up to a body that has none. -/
private theorem dropWhile_surrounded (hfront : ∀ c ∈ front, isBlank c = true)
    (hbody : ∀ c ∈ body, ¬ isBlank c = true) (hback : ∀ c ∈ back, isBlank c = true) :
    (front ++ (body ++ back)).dropWhile isBlank = if body = [] then [] else body ++ back := by
  rw [List.dropWhile_append_of_pos hfront]
  cases body with
  | nil => exact List.dropWhile_eq_nil_iff.mpr hback
  | cons c rest =>
      exact List.dropWhile_cons_of_neg (hbody c List.mem_cons_self)

/-- All white space is trimmed from around a body that has none. -/
theorem trim_eq_of_surrounds (h : Surrounds text body)
    (hbody : ∀ c ∈ body, ¬ isBlank c = true) :
    trim text = body := by
  obtain ⟨front, back, rfl, hblank⟩ := h
  obtain ⟨hfront, hback⟩ := List.forall_mem_append.mp hblank
  rw [trim, List.append_assoc, dropWhile_surrounded hfront hbody hback]
  by_cases hnil : body = []
  · rw [if_pos hnil, hnil, List.reverse_nil, List.dropWhile_nil, List.reverse_nil]
  · -- The other end is the front of the text read backwards, with nothing behind it.
    have hturned : (back.reverse ++ (body.reverse ++ [])).dropWhile isBlank =
        if body.reverse = [] then [] else body.reverse ++ [] :=
      dropWhile_surrounded (fun c hc => hback c (List.mem_reverse.mp hc))
        (fun c hc => hbody c (List.mem_reverse.mp hc)) nofun
    rw [List.append_nil, if_neg (mt List.reverse_eq_nil_iff.mp hnil)] at hturned
    rw [if_neg hnil, List.reverse_append, hturned, List.reverse_reverse]

end Blank

/-! ### Numerals -/

namespace Units

open Decimal

variable {text : String} {decimals : UInt8} {places n : Nat} {l w f body : List Char}

/-- The texts that stand for a number of smallest units, and the number, for a token with this
many places.  Leading zeros are allowed, and one side of the point may be empty. -/
inductive Numeral (places : Nat) : List Char → Nat → Prop
  /-- Whole tokens only. -/
  | whole {w : List Char} (something : w ≠ []) (digits : AllDigits w) :
      Numeral places w (value w * 10 ^ places)
  /-- Whole tokens and parts of one. -/
  | pointed {w f : List Char} (something : ¬ (w = [] ∧ f = [])) (whole : AllDigits w)
      (fraction : AllDigits f) (fits : f.length ≤ places) :
      Numeral places (w ++ '.' :: f) (value w * 10 ^ places + value f * 10 ^ (places - f.length))

theorem Numeral.not_isBlank (h : Numeral places body n) :
    ∀ c ∈ body, ¬ Blank.isBlank c = true := by
  cases h with
  | whole _ hdigits => exact fun c hc => Blank.not_isBlank_of_isDigit (hdigits c hc)
  | pointed _ hwhole hfraction _ =>
      intro c hc
      rcases List.mem_append.mp hc with hc | hc
      · exact Blank.not_isBlank_of_isDigit (hwhole c hc)
      rcases List.mem_cons.mp hc with rfl | hc
      · decide
      · exact Blank.not_isBlank_of_isDigit (hfraction c hc)

/-- A trimmed text is a numeral if the text is one with nothing but white space around it. -/
theorem numeral_trim_iff {chars : List Char} :
    Numeral places (Blank.trim chars) n ↔
      ∃ body, Blank.Surrounds chars body ∧ Numeral places body n := by
  constructor
  · exact fun h => ⟨_, Blank.surrounds_trim chars, h⟩
  · rintro ⟨body, hbody, h⟩
    rwa [Blank.trim_eq_of_surrounds hbody h.not_isBlank]

/-! ### Cutting at the point -/

private theorem digits_before_point (hdigits : AllDigits w) :
    ∀ c ∈ w, decide (c ≠ '.') = true :=
  fun c hc => decide_eq_true (ne_point_of_isDigit (hdigits c hc))

theorem splitPoint_digits (hdigits : AllDigits w) : splitPoint w = (w, []) := by
  have hbefore := digits_before_point hdigits
  rw [splitPoint, List.takeWhile_eq_self_iff.mpr hbefore, List.dropWhile_eq_nil_iff.mpr hbefore,
    List.drop_nil]

theorem splitPoint_pointed (hdigits : AllDigits w) : splitPoint (w ++ '.' :: f) = (w, f) := by
  have hbefore := digits_before_point hdigits
  rw [splitPoint, List.takeWhile_append_of_pos hbefore, List.dropWhile_append_of_pos hbefore,
    List.takeWhile_cons_of_neg (by decide), List.dropWhile_cons_of_neg (by decide),
    List.append_nil, List.drop_one, List.tail_cons]

/-- A text is its own first part, or its parts stand on the two sides of a point. -/
theorem splitPoint_cases (l : List Char) :
    splitPoint l = (l, []) ∨ ∃ w f, splitPoint l = (w, f) ∧ l = w ++ '.' :: f := by
  have hwhole := List.takeWhile_append_dropWhile (p := fun c => decide (c ≠ '.')) (l := l)
  cases hrest : l.dropWhile (fun c => decide (c ≠ '.')) with
  | nil =>
      rw [hrest, List.append_nil] at hwhole
      exact .inl (by rw [splitPoint, hrest, hwhole, List.drop_nil])
  | cons c f =>
      have hc : c = '.' := by
        have hhead := List.head?_dropWhile_not (fun c => decide (c ≠ '.')) l
        rw [hrest] at hhead
        simpa using hhead
      rw [hrest, hc] at hwhole
      exact .inr ⟨_, f, by rw [splitPoint, hrest, List.drop_one, List.tail_cons], hwhole.symm⟩

/-- Every digit is one byte. -/
theorem utf8Length_digits (hdigits : AllDigits l) : utf8Length l = l.length := by
  induction l with
  | nil => rfl
  | cons c rest ih =>
      have hrest : (String.ofList rest).utf8ByteSize = rest.length :=
        ih fun d hd => hdigits d (List.mem_cons_of_mem c hd)
      have hbyte : c.utf8Size = 1 := by
        have hc := isDigit_iff.mp (hdigits c List.mem_cons_self)
        exact Char.utf8Size_eq_one_iff.mpr (UInt32.le_iff_toNat_le.mpr (hc.2.trans (by decide)))
      rw [utf8Length, ← List.singleton_append, String.ofList_append, String.utf8ByteSize_append,
        ← String.singleton_eq_ofList, String.utf8ByteSize_singleton, hbyte, hrest,
        List.length_append, List.length_singleton]

/-- The number of a numeral is that of its digits, with the missing places filled up. -/
theorem value_filled (w f : List Char) (hfits : f.length ≤ places) :
    value (w ++ f ++ List.replicate (places - f.length) '0') =
      value w * 10 ^ places + value f * 10 ^ (places - f.length) := by
  rw [value_append_zeros, value_append, Nat.add_mul, Nat.mul_assoc, ← Nat.pow_add,
    Nat.add_sub_cancel' hfits]

/-- A numeral is known by its parts: there is something in one of them, they are digits, and
those behind the point are not more than the places. -/
theorem numeral_iff_parts :
    Numeral places l n ↔ ∃ w f, splitPoint l = (w, f) ∧ ¬ (w = [] ∧ f = []) ∧
      AllDigits (w ++ f) ∧ f.length ≤ places ∧
      n = value (w ++ f ++ List.replicate (places - f.length) '0') := by
  constructor
  · rintro (⟨hsomething, hdigits⟩ | ⟨hsomething, hwhole, hfraction, hfits⟩)
    · refine ⟨_, [], splitPoint_digits hdigits, fun h => hsomething h.1, ?_, Nat.zero_le _, ?_⟩
      · rwa [List.append_nil]
      · rw [List.append_nil, value_append_zeros, List.length_nil, Nat.sub_zero]
    · exact ⟨_, _, splitPoint_pointed hwhole, hsomething,
        allDigits_append.mpr ⟨hwhole, hfraction⟩, hfits, (value_filled _ _ hfits).symm⟩
  · rintro ⟨w, f, hparts, hsomething, hdigits, hfits, rfl⟩
    obtain ⟨hwhole, hfraction⟩ := allDigits_append.mp hdigits
    obtain hnone | ⟨w', f', hparts', rfl⟩ := splitPoint_cases l
    · obtain ⟨rfl, rfl⟩ := Prod.mk.inj (hnone.symm.trans hparts)
      rw [List.append_nil, value_append_zeros, List.length_nil, Nat.sub_zero]
      exact .whole (fun hnil => hsomething ⟨hnil, rfl⟩) hwhole
    · obtain ⟨rfl, rfl⟩ := Prod.mk.inj (hparts'.symm.trans hparts)
      rw [value_filled _ _ hfits]
      exact .pointed hsomething hwhole hfraction hfits

/-! ### Reading -/

/-- A numeral is read as its number, if that is an amount. -/
theorem parse_of_numeral (h : Numeral decimals.toNat (Blank.trim text.toList) n) :
    parse text decimals =
      if hn : n < Amount.size then .ok ⟨n, hn⟩
      else .error (invalid "amount too large" text) := by
  obtain ⟨w, f, hparts, hsomething, hdigits, hfits, rfl⟩ := numeral_iff_parts.mp h
  have hbytes : utf8Length f = f.length := utf8Length_digits (allDigits_append.mp hdigits).2
  rw [parse, hparts]
  simp only
  rw [if_neg hsomething, if_neg (hbytes ▸ Nat.not_lt.mpr hfits),
    if_neg (not_not.mpr (all_isDigit_iff.mpr hdigits)), Amount.ofNat?]
  split_ifs <;> rfl

/-- Nothing else is read, and one of three reasons is given. -/
theorem parse_of_not_numeral (h : ∀ n, ¬ Numeral decimals.toNat (Blank.trim text.toList) n) :
    ∃ reason ∈ ["empty amount", "too many decimal places", "not a decimal number"],
      parse text decimals = .error (invalid reason text) := by
  obtain ⟨w, f, hparts⟩ : ∃ w f, splitPoint (Blank.trim text.toList) = (w, f) :=
    ⟨_, _, rfl⟩
  rw [parse, hparts]
  simp only
  split_ifs with hnothing hlong hdigits
  · exact ⟨_, .head _, rfl⟩
  · exact ⟨_, .tail _ (.head _), rfl⟩
  · -- Bytes were counted before, and only now are they known to be digits.
    have hdigits : AllDigits (w ++ f) := all_isDigit_iff.mp hdigits
    rw [utf8Length_digits (allDigits_append.mp hdigits).2] at hlong
    have hfits : f.length ≤ decimals.toNat := Nat.le_of_not_lt hlong
    exact absurd (numeral_iff_parts.mpr ⟨w, f, hparts, hnothing, hdigits, hfits, rfl⟩) (h _)
  · exact ⟨_, .tail _ (.tail _ (.head _)), rfl⟩

/-- An amount is read from its numerals. -/
theorem parse_eq_ok_iff {amount : Amount} :
    parse text decimals = .ok amount ↔
      Numeral decimals.toNat (Blank.trim text.toList) amount.val := by
  constructor
  · intro hread
    by_cases hnumeral : ∃ n, Numeral decimals.toNat (Blank.trim text.toList) n
    · obtain ⟨n, hn⟩ := hnumeral
      rw [parse_of_numeral hn] at hread
      split_ifs at hread with hsize
      cases hread
      exact hn
    · obtain ⟨reason, -, hrefused⟩ := parse_of_not_numeral (not_exists.mp hnumeral)
      cases hrefused.symm.trans hread
  · intro h
    rw [parse_of_numeral h, dif_pos amount.isLt]

/-- The reason can be read off an error. -/
theorem invalid_inj {reason other : String} :
    invalid reason text = invalid other text ↔ reason = other := by
  refine ⟨fun h => ?_, fun h => h ▸ rfl⟩
  have htext : reason ++ ": " ++ text = other ++ ": " ++ text := (Error.invalidParameter.inj h).2
  exact (String.append_left_inj _).mp ((String.append_left_inj _).mp htext)

/-- An amount is refused as too large exactly if it is a numeral and its number is no amount. -/
theorem parse_too_large_iff :
    parse text decimals = .error (invalid "amount too large" text) ↔
      ∃ n, Numeral decimals.toNat (Blank.trim text.toList) n ∧ Amount.size ≤ n := by
  constructor
  · intro hrefused
    by_cases hnumeral : ∃ n, Numeral decimals.toNat (Blank.trim text.toList) n
    · obtain ⟨n, hn⟩ := hnumeral
      rw [parse_of_numeral hn] at hrefused
      split_ifs at hrefused with hsize
      exact ⟨n, hn, Nat.le_of_not_lt hsize⟩
    · obtain ⟨reason, hreason, hother⟩ := parse_of_not_numeral (not_exists.mp hnumeral)
      rw [← invalid_inj.mp (Except.error.inj (hrefused.symm.trans hother))] at hreason
      exact absurd hreason (by decide)
  · rintro ⟨n, hn, hsize⟩
    rw [parse_of_numeral hn, dif_neg (Nat.not_lt.mpr hsize)]

/-- A text is read as an amount exactly if it is a numeral of that amount with nothing but white
space around it, a numeral of a larger number is refused for its size, and every other text is
refused as an invalid parameter. -/
theorem numerals_are_read (text : String) (decimals : UInt8) :
    (∀ amount, parse text decimals = .ok amount ↔
      Numeral decimals.toNat (Blank.trim text.toList) amount.val) ∧
    (parse text decimals = .error (.invalidParameter "amount" s!"amount too large: {text}") ↔
      ∃ n, Numeral decimals.toNat (Blank.trim text.toList) n ∧ Amount.size ≤ n) ∧
    ((∃ n, Numeral decimals.toNat (Blank.trim text.toList) n) ∨
      ∃ reason ∈ ["empty amount", "too many decimal places", "not a decimal number"],
        parse text decimals = .error (.invalidParameter "amount" s!"{reason}: {text}")) ∧
    (∀ n, Numeral decimals.toNat (Blank.trim text.toList) n ↔
      ∃ body, Blank.Surrounds text.toList body ∧ Numeral decimals.toNat body n) :=
  ⟨fun _ => parse_eq_ok_iff, parse_too_large_iff,
    or_iff_not_imp_left.mpr fun h => parse_of_not_numeral (not_exists.mp h),
    fun _ => numeral_trim_iff⟩

end Units

end Custody
