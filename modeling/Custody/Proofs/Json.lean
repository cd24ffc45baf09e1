/-
Pretty texts of JSON values are read back.

A text says less than a value: a fraction is written with digits that several mantissas have, and a
string with half of a surrogate pair has no text at all.  Values without either are exact, and
these are the ones that their text determines.

The reader carries a count, and what it reads depends on what stands behind it.  So each lemma is
about a text with something behind it, and asks that the count be no less than the text is long.
Only numbers care for what follows: a further digit would be read as part of them.
-/
import Custody.Json.Reader
import Custody.Proofs.Hex
import Custody.Proofs.Printing

namespace Custody

/-! ### Digits -/

namespace Decimal

theorem value_lt {l : List Char} (h : AllDigits l) : value l < 10 ^ l.length := by
  induction l with
  | nil => exact Nat.one_pos
  | cons c rest ih =>
      have hrest := ih fun d hd => h d (List.mem_cons_of_mem c hd)
      have hc := isDigit_iff.mp (h c List.mem_cons_self)
      have hone : value [c] = digitValue c := by simp [value]
      have hdigit : digitValue c + 1 ≤ 10 := by
        unfold digitValue
        omega
      rw [← List.singleton_append, value_append, hone, List.length_append, List.length_singleton,
        Nat.add_comm 1, Nat.pow_succ, Nat.mul_comm (10 ^ _)]
      calc digitValue c * 10 ^ rest.length + value rest
          < digitValue c * 10 ^ rest.length + 10 ^ rest.length := Nat.add_lt_add_left hrest _
        _ = (digitValue c + 1) * 10 ^ rest.length := by rw [Nat.succ_mul]
        _ ≤ 10 * 10 ^ rest.length := Nat.mul_le_mul_right _ hdigit

/-- A number of several digits does not start with a zero. -/
theorem digits_ne_zero_cons (n : Nat) {l : List Char} (hl : l ≠ []) : digits n ≠ '0' :: l := by
  intro h
  have hdigits := allDigits_digits n
  rw [h] at hdigits
  have hl' : AllDigits l := fun c hc => hdigits c (List.mem_cons_of_mem _ hc)
  have hvalue : n = value l := by
    have hzero : value ['0'] = 0 := rfl
    rw [← value_digits n, h, ← List.singleton_append, value_append, hzero, Nat.zero_mul,
      Nat.zero_add]
  have hlength : (digits n).length ≤ l.length :=
    (Nat.length_toDigits_le_iff (by decide) (List.length_pos_iff.mpr hl)).mpr
      (hvalue ▸ value_lt hl')
  rw [h, List.length_cons] at hlength
  omega

end Decimal

namespace Json

open Decimal

variable {c : Char} {s rest : List Char} {n level : Nat}

/-! ### Spaces -/

@[simp] theorem skip_space (s : List Char) : skip (' ' :: s) = skip s := rfl

@[simp] theorem skip_newline (level : Nat) (s : List Char) :
    skip (newline level ++ s) = skip s := by
  refine List.dropWhile_append_of_pos ?_
  intro c hc
  rcases List.mem_cons.mp hc with rfl | hc
  · decide
  · rw [List.eq_of_mem_replicate hc]
    decide

theorem skip_cons (h : isSpace c = false) : skip (c :: s) = c :: s :=
  List.dropWhile_cons_of_neg (by rw [h]; exact Bool.false_ne_true)

/-! ### Strings -/

/-- How the reader sees a character that was escaped: a control character without a letter of its
own comes back as a unit. -/
def piece (c : Char) : Piece :=
  if c.toNat < 32 ∧ c ∉ ['\n', '\r', '\t', '\x08', '\x0c'] then .unit c.toNat else .char c

theorem pieces?_letter {e : Char} (hunit : e ≠ 'u') (h : escaped? e = some c) (s : List Char) :
    pieces? ('\\' :: e :: s) = (pieces? s).map fun p => (.char c :: p.1, p.2) := by
  rw [pieces?, h]
  · cases pieces? s <;> rfl
  · intro _ _ _ _ _ he
    exact absurd he hunit

theorem pieces?_unit {a b d e : Char} (h : unit? a b d e = some n) (s : List Char) :
    pieces? ('\\' :: 'u' :: a :: b :: d :: e :: s) =
      (pieces? s).map fun p => (.unit n :: p.1, p.2) := by
  rw [pieces?, h]
  cases pieces? s <;> rfl

theorem pieces?_plain (hquote : c ≠ '"') (hslash : c ≠ '\\') (hlow : ¬ c.toNat < 32)
    (s : List Char) : pieces? (c :: s) = (pieces? s).map fun p => (.char c :: p.1, p.2) := by
  rw [pieces?, if_neg hlow]
  · exact hquote
  · intro _ _ _ _ _ hc
    exact absurd hc hslash
  · intro _ _ hc
    exact absurd hc hslash

theorem hexValue?_digit : ∀ n < 16, hexValue? (Hex.digit n) = some n := by
  decide

/-- Four digits of which the first two are zero are read as the last two. -/
theorem unit?_control (h : n < 256) :
    unit? '0' '0' (Hex.digit (n / 16)) (Hex.digit (n % 16)) = some n := by
  have hhigh : n / 16 < 16 := by omega
  have hlow : n % 16 < 16 := by omega
  have hzero : hexValue? '0' = some 0 := rfl
  rw [unit?, hexValue?_digit _ hhigh, hexValue?_digit _ hlow, hzero]
  simp only [Option.bind_eq_bind, Option.bind_some, Option.pure_def]
  congr 1
  omega

/-- **One character is read for each that was escaped.** -/
theorem pieces?_escape (c : Char) (s : List Char) :
    pieces? (escape c ++ s) = (pieces? s).map fun p => (piece c :: p.1, p.2) := by
  unfold escape
  split_ifs with hquote hslash hline hreturn htab hback hfeed hcontrol
  · subst hquote
    exact pieces?_letter (by decide) rfl s
  · subst hslash
    exact pieces?_letter (by decide) rfl s
  · subst hline
    exact pieces?_letter (by decide) rfl s
  · subst hreturn
    exact pieces?_letter (by decide) rfl s
  · subst htab
    exact pieces?_letter (by decide) rfl s
  · subst hback
    exact pieces?_letter (by decide) rfl s
  · subst hfeed
    exact pieces?_letter (by decide) rfl s
  · have hpiece : piece c = .unit c.toNat := if_pos ⟨hcontrol, by simp_all⟩
    rw [hpiece]
    exact pieces?_unit (unit?_control (by omega)) s
  · have hpiece : piece c = .char c := if_neg fun h => hcontrol h.1
    rw [hpiece]
    exact pieces?_plain hquote hslash hcontrol s

theorem pieces?_escaped (l rest : List Char) :
    pieces? (l.flatMap escape ++ '"' :: rest) = some (l.map piece, rest) := by
  induction l with
  | nil => rfl
  | cons c l ih =>
      rw [List.flatMap_cons, List.append_assoc, pieces?_escape, ih]
      rfl

/-- A unit below the surrogates stands for a character by itself, whatever comes next. -/
theorem characters?_unit (h : n < 0xd800) (ps : List Piece) :
    characters? (.unit n :: ps) = (characters? ps).map (Char.ofNat n :: ·) := by
  have hhigh : isHigh n = false := by
    simp only [isHigh, Bool.and_eq_false_iff, decide_eq_false_iff_not]
    omega
  have hlow : isLow n = false := by
    simp only [isLow, Bool.and_eq_false_iff, decide_eq_false_iff_not]
    omega
  cases ps with
  | nil => simp [characters?, hhigh, hlow]
  | cons p ps =>
      cases p with
      | char c => simp [characters?, hhigh, hlow]
      | unit m => simp [characters?, hhigh, hlow]

theorem characters?_piece (c : Char) (ps : List Piece) :
    characters? (piece c :: ps) = (characters? ps).map (c :: ·) := by
  unfold piece
  split_ifs with hcontrol
  · rw [characters?_unit (by omega), Char.ofNat_toNat]
  · rfl

theorem characters?_pieces (l : List Char) : characters? (l.map piece) = some l := by
  induction l with
  | nil => rfl
  | cons c l ih =>
      rw [List.map_cons, characters?_piece, ih]
      rfl

/-- A string is read from its text. -/
theorem string?_quote (text : String) (rest : List Char) :
    string? (text.toList.flatMap escape ++ '"' :: rest) = some (some text, rest) := by
  rw [string?, pieces?_escaped, Option.map_some, characters?_pieces, Option.map_some,
    String.ofList_toList]

/-! ### Numbers -/

/-- A text that goes on in no number: neither a digit nor a point nor an exponent comes next. -/
def EndsNumber (rest : List Char) : Prop :=
  ∀ c ∈ rest.head?, isDigit c = false ∧ c ≠ '.' ∧ c ≠ 'e' ∧ c ≠ 'E'

theorem endsNumber_nil : EndsNumber [] := nofun

theorem endsNumber_comma : EndsNumber (',' :: s) := by
  intro c hc
  obtain rfl := Option.some.inj hc
  decide

theorem endsNumber_newline : EndsNumber (newline level ++ s) := by
  intro c hc
  obtain rfl := Option.some.inj hc
  decide

theorem digits?_append {l : List Char} (hl : l ≠ []) (hdigits : AllDigits l)
    (h : EndsNumber rest) : digits? (l ++ rest) = some (l, rest) := by
  have hnone : rest.takeWhile isDigit = [] ∧ rest.dropWhile isDigit = rest := by
    cases rest with
    | nil => exact ⟨rfl, rfl⟩
    | cons c rest =>
        have hc : ¬ isDigit c = true := by
          rw [(h c rfl).1]
          exact Bool.false_ne_true
        exact ⟨List.takeWhile_cons_of_neg hc, List.dropWhile_cons_of_neg hc⟩
  simp only [digits?, List.takeWhile_append_of_pos hdigits, List.dropWhile_append_of_pos hdigits,
    hnone.1, hnone.2, List.append_nil, if_neg hl]

theorem whole?_digits (n : Nat) (h : EndsNumber rest) :
    whole? (digits n ++ rest) = some (digits n, rest) := by
  have hread := digits?_append (digits_ne_nil n) (allDigits_digits n) h
  unfold whole?
  split
  · next more hzero =>
    cases hn : digits n with
    | nil => exact absurd hn (digits_ne_nil n)
    | cons c l =>
        rw [hn, List.cons_append, List.cons.injEq] at hzero
        obtain ⟨rfl, rfl⟩ := hzero
        cases l with
        | nil => rfl
        | cons d l => exact absurd hn (digits_ne_zero_cons n (List.cons_ne_nil d l))
  · exact hread

theorem fraction?_none (h : EndsNumber rest) : fraction? rest = some (none, rest) := by
  cases rest with
  | nil => rfl
  | cons c rest =>
      rw [fraction?]
      intro _ hc
      exact (h c rfl).2.1 (List.cons.inj hc).1

theorem exponent?_none (h : EndsNumber rest) : exponent? rest = some (none, rest) := by
  cases rest with
  | nil => rfl
  | cons c rest => exact if_neg (not_or.mpr (h c rfl).2.2)

/-- A whole number is read from its digits, as long as nothing goes on in it. -/
theorem magnitude?_digits (negative : Bool) (n : Nat) (h : EndsNumber rest) :
    magnitude? negative (digits n ++ rest) = some (.integer negative n, rest) := by
  simp only [magnitude?, whole?_digits n h, fraction?_none h, exponent?_none h, value_digits,
    Option.bind_eq_bind, Option.bind_some, Option.pure_def]

/-- The first digit of a number is neither a sign nor the start of anything else. -/
theorem digits_eq_cons (n : Nat) : ∃ c l, digits n = c :: l ∧ isDigit c = true := by
  obtain ⟨c, l, hn⟩ := List.exists_cons_of_ne_nil (digits_ne_nil n)
  exact ⟨c, l, hn, allDigits_digits n c (by simp [hn])⟩

theorem number?_chars (negative : Bool) (n : Nat) (h : EndsNumber rest) :
    number? ((Number.integer negative n).chars ++ rest) = some (.integer negative n, rest) := by
  rw [Number.chars, List.append_assoc]
  cases negative with
  | true => exact magnitude?_digits true n h
  | false =>
      have hread := magnitude?_digits false n h
      obtain ⟨c, l, hn, hc⟩ := digits_eq_cons n
      rw [hn, List.cons_append] at hread ⊢
      unfold number?
      split
      · next _ hminus =>
        obtain ⟨rfl, -⟩ := List.cons.inj hminus
        exact absurd hc (by decide)
      · exact hread

/-! ### Values -/

mutual

/-- A value that its text determines: every number in it is whole, and every string has a text. -/
def Exact : Json → Prop
  | .null | .bool _ | .number (.integer ..) => True
  | .number (.decimal ..) => False
  | .string text => text.isSome
  | .array elements => ExactElements elements
  | .object members => ExactMembers members

/-- Elements that their texts determine. -/
def ExactElements : List Json → Prop
  | [] => True
  | v :: rest => Exact v ∧ ExactElements rest

/-- Members that their texts determine, the names included. -/
def ExactMembers : List (Option String × Json) → Prop
  | [] => True
  | m :: rest => m.1.isSome ∧ Exact m.2 ∧ ExactMembers rest

end

theorem value?_newline (n level : Nat) (s : List Char) :
    value? n (newline level ++ s) = value? n s := by
  cases n with
  | zero => rfl
  | succ n => simp only [value?, skip_newline]

theorem value?_space (n : Nat) (s : List Char) : value? n (' ' :: s) = value? n s := by
  cases n with
  | zero => rfl
  | succ n => simp only [value?, skip_space]

theorem elements?_newline (n level : Nat) (s : List Char) :
    elements? n (newline level ++ s) = elements? n s := by
  cases n with
  | zero => rfl
  | succ n => simp only [elements?, value?_newline]

theorem members?_newline (n level : Nat) (s : List Char) :
    members? n (newline level ++ s) = members? n s := by
  cases n with
  | zero => rfl
  | succ n => simp only [members?, skip_newline]

/-- A sign or a digit. -/
def StartsNumber (c : Char) : Prop := c = '-' ∨ isDigit c = true

instance (c : Char) : Decidable (StartsNumber c) := inferInstanceAs (Decidable (_ ∨ _))

theorem StartsNumber.ne {d : Char} (h : StartsNumber c) (hd : ¬ StartsNumber d) : c ≠ d :=
  fun heq => hd (heq ▸ h)

theorem StartsNumber.not_space (h : StartsNumber c) : isSpace c = false := by
  simp only [isSpace, Bool.or_eq_false_iff, decide_eq_false_iff_not]
  exact ⟨⟨⟨h.ne (by decide), h.ne (by decide)⟩, h.ne (by decide)⟩, h.ne (by decide)⟩

/-- The text of a whole number starts like one. -/
theorem chars_eq_cons (negative : Bool) (n : Nat) :
    ∃ c s, (Number.integer negative n).chars = c :: s ∧ StartsNumber c := by
  obtain ⟨c, l, hn, hc⟩ := digits_eq_cons n
  cases negative with
  | true => exact ⟨'-', digits n, rfl, .inl rfl⟩
  | false => exact ⟨c, l, hn, .inr hc⟩

theorem value?_startsNumber (h : StartsNumber c) (n : Nat) (s : List Char) :
    value? (n + 1) (c :: s) = (number? (c :: s)).map fun p => (.number p.1, p.2) := by
  rw [value?, skip_cons h.not_space]
  split
  case h_7 => rfl
  all_goals
    next heq => exact absurd (List.cons.inj heq).1 (h.ne (by decide))

/-- The text of an exact value starts with the value, and not with the end of a list. -/
theorem prettyChars_eq_cons {v : Json} (h : Exact v) (level : Nat) :
    ∃ c s, prettyChars level v = c :: s ∧ isSpace c = false ∧ c ≠ ']' := by
  cases v with
  | null => exact ⟨'n', _, rfl, rfl, by decide⟩
  | bool b => cases b <;> exact ⟨_, _, rfl, rfl, by decide⟩
  | number number =>
      cases number with
      | integer negative n =>
          obtain ⟨c, s, hchars, hc⟩ := chars_eq_cons negative n
          exact ⟨c, s, hchars, hc.not_space, hc.ne (by decide)⟩
      | decimal negative mantissa exponent => exact h.elim
  | string text => exact ⟨'"', _, rfl, rfl, by decide⟩
  | array elements => cases elements <;> exact ⟨'[', _, rfl, rfl, by decide⟩
  | object members => cases members <;> exact ⟨'\x7b', _, rfl, rfl, by decide⟩

theorem prettyElements_eq_cons {v : Json} (vs : List Json) (h : Exact v) (level : Nat) :
    ∃ c s, prettyElements level (v :: vs) = c :: s ∧ isSpace c = false ∧ c ≠ ']' := by
  obtain ⟨c, s, hv, hc⟩ := prettyChars_eq_cons h level
  cases vs with
  | nil => exact ⟨c, s, by rw [prettyElements, hv], hc⟩
  | cons w vs =>
      exact ⟨c, _, by rw [prettyElements, hv, List.cons_append, List.cons_append], hc⟩

theorem prettyMembers_eq_cons (m : Option String × Json) (ms : List (Option String × Json))
    (level : Nat) : ∃ s, prettyMembers level (m :: ms) = '"' :: s := by
  obtain ⟨name, v⟩ := m
  cases ms with
  | nil => exact ⟨_, rfl⟩
  | cons m ms => exact ⟨_, rfl⟩

/-! One step of the reader for each place at which the writer puts something between values. -/

section

variable {v : Json} {t : List Char} {name : String}

theorem elements?_last (hv : value? n s = some (v, t)) (ht : skip t = ']' :: rest) :
    elements? (n + 1) s = some ([v], rest) := by
  simp only [elements?, hv, ht]

theorem elements?_more (hv : value? n s = some (v, t)) (ht : skip t = ',' :: rest) :
    elements? (n + 1) s = (elements? n rest).map fun p => (v :: p.1, p.2) := by
  simp only [elements?, hv, ht]

theorem members?_last (hv : value? n s = some (v, t)) (ht : skip t = '\x7d' :: rest) :
    members? (n + 1) (quoteString (some name) ++ ':' :: ' ' :: s) =
      some ([(some name, v)], rest) := by
  simp only [quoteString, quote, Option.getD_some, List.append_assoc, List.cons_append,
    List.nil_append, members?, skip_cons (show isSpace '"' = false from rfl), string?_quote,
    skip_cons (show isSpace ':' = false from rfl), value?_space, hv, ht]

theorem members?_more (hv : value? n s = some (v, t)) (ht : skip t = ',' :: rest) :
    members? (n + 1) (quoteString (some name) ++ ':' :: ' ' :: s) =
      (members? n rest).map fun p => ((some name, v) :: p.1, p.2) := by
  simp only [quoteString, quote, Option.getD_some, List.append_assoc, List.cons_append,
    List.nil_append, members?, skip_cons (show isSpace '"' = false from rfl), string?_quote,
    skip_cons (show isSpace ':' = false from rfl), value?_space, hv, ht]

theorem value?_bracket (hspace : isSpace c = false) (hc : c ≠ ']') (s : List Char) :
    value? (n + 1) ('[' :: newline level ++ c :: s) =
      (elements? n (c :: s)).map fun p => (.array p.1, p.2) := by
  rw [List.cons_append, value?, skip_cons rfl]
  simp only [skip_newline, skip_cons hspace]
  split
  · next heq => exact absurd (List.cons.inj heq).1 hc
  · rfl

theorem value?_brace (s : List Char) :
    value? (n + 1) ('\x7b' :: newline level ++ '"' :: s) =
      (members? n ('"' :: s)).map fun p => (.object p.1, p.2) := by
  rw [List.cons_append, value?, skip_cons rfl]
  simp only [skip_newline, skip_cons (show isSpace '"' = false from rfl)]
  rfl

end

-- The reader passes its count on less one, so the induction is on the count.
mutual

/-- The text of an exact value is read as this value, and the reader stops behind it. -/
theorem value?_prettyChars : ∀ (v : Json) (level n : Nat) (rest : List Char), Exact v →
    EndsNumber rest → (prettyChars level v).length ≤ n →
    value? n (prettyChars level v ++ rest) = some (v, rest)
  | _, _, 0, _, h, _, hn => by
      obtain ⟨c, s, hchars, -⟩ := prettyChars_eq_cons h _
      rw [hchars] at hn
      exact absurd hn (Nat.not_succ_le_zero _)
  | .null, _, _ + 1, _, _, _, _ => rfl
  | .bool true, _, _ + 1, _, _, _, _ => rfl
  | .bool false, _, _ + 1, _, _, _, _ => rfl
  | .number (.integer negative m), level, n + 1, rest, _, hrest, _ => by
      have hread := number?_chars negative m hrest
      obtain ⟨c, s, hchars, hc⟩ := chars_eq_cons negative m
      rw [prettyChars]
      rw [hchars, List.cons_append] at hread ⊢
      rw [value?_startsNumber hc, hread]
      rfl
  | .number (.decimal ..), _, _ + 1, _, h, _, _ => h.elim
  | .string none, _, _ + 1, _, h, _, _ => absurd h Bool.false_ne_true
  | .string (some text), level, n + 1, rest, _, _, _ => by
      rw [prettyChars, quoteString, quote, Option.getD_some, List.append_assoc, List.cons_append,
        List.singleton_append, value?, skip_cons rfl]
      simp only [string?_quote, Option.map_some]
  | .array [], _, _ + 1, _, _, _, _ => rfl
  | .array (v :: vs), level, n + 1, rest, h, _, hn => by
      have hlength : (prettyElements (level + 1) (v :: vs)).length < n := by
        simp only [prettyChars, newline, List.length_append, List.length_cons] at hn
        omega
      have hread := elements?_prettyElements v vs (level + 1) level n rest h hlength
      obtain ⟨c, s, hchars, hspace, hc⟩ := prettyElements_eq_cons vs h.1 (level + 1)
      rw [prettyChars]
      simp only [List.append_assoc, List.singleton_append]
      rw [hchars] at hread ⊢
      simp only [List.append_assoc, List.cons_append] at hread ⊢
      rw [← List.cons_append, value?_bracket hspace hc, hread]
      rfl
  | .object [], _, _ + 1, _, _, _, _ => rfl
  | .object (m :: ms), level, n + 1, rest, h, _, hn => by
      have hlength : (prettyMembers (level + 1) (m :: ms)).length < n := by
        simp only [prettyChars, newline, List.length_append, List.length_cons] at hn
        omega
      have hread := members?_prettyMembers m ms (level + 1) level n rest h hlength
      obtain ⟨s, hchars⟩ := prettyMembers_eq_cons m ms (level + 1)
      rw [prettyChars]
      simp only [List.append_assoc, List.singleton_append]
      rw [hchars] at hread ⊢
      simp only [List.append_assoc, List.cons_append] at hread ⊢
      rw [← List.cons_append, value?_brace, hread]
      rfl
termination_by structural _ _ n => n

/-- The lines between two brackets are read as the elements. -/
theorem elements?_prettyElements : ∀ (v : Json) (vs : List Json) (level outer n : Nat)
    (rest : List Char), ExactElements (v :: vs) → (prettyElements level (v :: vs)).length < n →
    elements? n (prettyElements level (v :: vs) ++ newline outer ++ ']' :: rest) =
      some (v :: vs, rest)
  | v, [], level, outer, n + 1, rest, h, hn => by
      rw [prettyElements] at hn ⊢
      have hv := value?_prettyChars v level n (newline outer ++ ']' :: rest) h.1
        endsNumber_newline (Nat.le_of_lt_succ hn)
      rw [List.append_assoc]
      exact elements?_last hv (skip_newline ..)
  | v, w :: vs, level, outer, n + 1, rest, h, hn => by
      have hlength : (prettyChars level v).length ≤ n ∧
          (prettyElements level (w :: vs)).length < n := by
        simp only [prettyElements, newline, List.length_append, List.length_cons] at hn
        omega
      have hread := elements?_prettyElements w vs level outer n rest h.2 hlength.2
      rw [prettyElements]
      simp only [List.append_assoc, List.cons_append] at hread ⊢
      have hv := value?_prettyChars v level n (',' :: (newline level ++ (prettyElements level
        (w :: vs) ++ (newline outer ++ ']' :: rest)))) h.1 endsNumber_comma hlength.1
      rw [elements?_more hv (skip_cons rfl), elements?_newline, hread]
      rfl
termination_by structural _ _ _ _ n => n

/-- The lines between two braces are read as the members. -/
theorem members?_prettyMembers : ∀ (m : Option String × Json) (ms : List (Option String × Json))
    (level outer n : Nat) (rest : List Char), ExactMembers (m :: ms) →
    (prettyMembers level (m :: ms)).length < n →
    members? n (prettyMembers level (m :: ms) ++ newline outer ++ '\x7d' :: rest) =
      some (m :: ms, rest)
  | (none, _), _, _, _, _, _, h, _ => absurd h.1 Bool.false_ne_true
  | (some name, v), [], level, outer, n + 1, rest, h, hn => by
      have hlength : (prettyChars level v).length ≤ n := by
        simp only [prettyMembers, List.length_append, List.length_cons] at hn
        omega
      have hv := value?_prettyChars v level n (newline outer ++ '\x7d' :: rest) h.2.1
        endsNumber_newline hlength
      rw [prettyMembers]
      simp only [List.append_assoc, List.cons_append]
      exact members?_last hv (skip_newline ..)
  | (some name, v), m :: ms, level, outer, n + 1, rest, h, hn => by
      have hlength : (prettyChars level v).length ≤ n ∧
          (prettyMembers level (m :: ms)).length < n := by
        simp only [prettyMembers, newline, List.length_append, List.length_cons] at hn
        omega
      have hread := members?_prettyMembers m ms level outer n rest h.2.2 hlength.2
      rw [prettyMembers]
      simp only [List.append_assoc, List.cons_append] at hread ⊢
      have hv := value?_prettyChars v level n (',' :: (newline level ++ (prettyMembers level
        (m :: ms) ++ (newline outer ++ '\x7d' :: rest)))) h.2.1 endsNumber_comma hlength.1
      rw [members?_more hv (skip_cons rfl), members?_newline, hread]
      rfl
termination_by structural _ _ _ _ n => n

end

/-- **An exact value is read back from its pretty text**, for which the count that the reader starts
with is enough. -/
theorem ofText?_pretty {v : Json} (h : Exact v) : ofText? v.pretty = some v := by
  have hread : value? (2 * (prettyChars 0 v).length + 2) (prettyChars 0 v ++ []) = some (v, []) :=
    value?_prettyChars v 0 _ [] h endsNumber_nil (by omega)
  rw [List.append_nil] at hread
  rw [ofText?, pretty, String.toList_ofList, ofChars?, hread]
  rfl

end Json

end Custody
