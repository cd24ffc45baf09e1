/-
Reading JSON texts.

The reader goes down the grammar and hands on what is left of the text.  Values may be
nested, so the reader carries a count that bounds the nesting and the number of
elements; a text is never longer than its count, so the count does not run out.
-/
import Custody.Json

namespace Custody.Json

/-! ### Blanks, digits and words -/

/-- Whether a character may stand between the parts of a text. -/
def isSpace (c : Char) : Bool :=
  c = ' ' || c = '\n' || c = '\t' || c = '\r'

/-- The text from its first character that is no space. -/
def skip (s : List Char) : List Char :=
  s.dropWhile isSpace

/-- What follows a word, if the text starts with it. -/
def word? : (word text : List Char) → Option (List Char)
  | [], text => some text
  | _ :: _, [] => none
  | c :: word, d :: text => if c = d then word? word text else none

/-! ### Numbers -/

/-- Leading digits and what follows them; there has to be a digit. -/
def digits? (s : List Char) : Option (List Char × List Char) :=
  let ds := s.takeWhile Decimal.isDigit
  if ds = [] then none else some (ds, s.dropWhile Decimal.isDigit)

/-- The digits before the point: a zero alone, or digits that start with another one. -/
def whole? (s : List Char) : Option (List Char × List Char) :=
  match s with
  | '0' :: rest => some (['0'], rest)
  | _ => digits? s

/-- The digits after a point, none if there is no point. -/
def fraction? : List Char → Option (Option (List Char) × List Char)
  | '.' :: rest => (digits? rest).map fun p => (some p.1, p.2)
  | s => some (none, s)

/-- A sign and what follows it; without a sign the number is positive. -/
def sign? : List Char → Bool × List Char
  | '-' :: rest => (true, rest)
  | '+' :: rest => (false, rest)
  | s => (false, s)

/-- An exponent, none if there is no mark. -/
def exponent? (s : List Char) : Option (Option Int × List Char) :=
  match s with
  | [] => some (none, s)
  | c :: rest =>
    if c = 'e' ∨ c = 'E' then
      let (negative, rest) := sign? rest
      (digits? rest).map fun p =>
        let n : Int := Decimal.value p.1
        (some (if negative then -n else n), p.2)
    else some (none, s)

/-- A number without its sign. -/
def magnitude? (negative : Bool) (s : List Char) : Option (Number × List Char) := do
  let (whole, s) ← whole? s
  let (fraction, s) ← fraction? s
  let (exponent, s) ← exponent? s
  match fraction, exponent with
  | none, none => return (.integer negative (Decimal.value whole), s)
  | fraction, exponent =>
    let (mantissa, scale) := oneWord whole (fraction.getD [])
    return (.decimal negative mantissa (exponent.getD 0 + scale), s)

/-- A number. -/
def number? : List Char → Option (Number × List Char)
  | '-' :: rest => magnitude? true rest
  | s => magnitude? false s

/-! ### Strings -/

/-- A part of a string: a character, or a UTF-16 unit given by number. -/
inductive Piece where
  | char (c : Char)
  | unit (n : Nat)
deriving DecidableEq

/-- The character that a letter after a backslash stands for. -/
def escaped? : Char → Option Char
  | '"' => some '"'
  | '\\' => some '\\'
  | '/' => some '/'
  | 'b' => some '\x08'
  | 'f' => some '\x0c'
  | 'n' => some '\n'
  | 'r' => some '\r'
  | 't' => some '\t'
  | _ => none

/-- The value of a base-16 digit. -/
def hexValue? (c : Char) : Option Nat :=
  if c.toNat < 128 then Hex.value? (UInt8.ofNat c.toNat) else none

/-- The value of four base-16 digits. -/
def unit? (a b c d : Char) : Option Nat := do
  return 4096 * (← hexValue? a) + 256 * (← hexValue? b) + 16 * (← hexValue? c)
    + (← hexValue? d)

/-- The parts of a string up to its closing quote, and what follows. -/
def pieces? : List Char → Option (List Piece × List Char)
  | '"' :: rest => some ([], rest)
  | '\\' :: 'u' :: a :: b :: c :: d :: rest =>
    match unit? a b c d, pieces? rest with
    | some n, some (ps, s) => some (.unit n :: ps, s)
    | _, _ => none
  | '\\' :: e :: rest =>
    match escaped? e, pieces? rest with
    | some c, some (ps, s) => some (.char c :: ps, s)
    | _, _ => none
  | c :: rest =>
    if c.toNat < 32 then none
    else (pieces? rest).map fun p => (.char c :: p.1, p.2)
  | [] => none

/-- Whether a unit is the first of a surrogate pair. -/
def isHigh (n : Nat) : Bool := 0xd800 ≤ n && n < 0xdc00

/-- Whether a unit is the second of a surrogate pair. -/
def isLow (n : Nat) : Bool := 0xdc00 ≤ n && n < 0xe000

/-- The characters of a string, unless a surrogate stands alone. -/
def characters? : List Piece → Option (List Char)
  | [] => some []
  | .char c :: rest => (characters? rest).map (c :: ·)
  | .unit high :: .unit low :: rest =>
    if isHigh high && isLow low then
      let c := Char.ofNat (0x10000 + 0x400 * (high - 0xd800) + (low - 0xdc00))
      (characters? rest).map (c :: ·)
    else if isHigh high || isLow high then none
    else (characters? (.unit low :: rest)).map (Char.ofNat high :: ·)
  | .unit n :: rest =>
    if isHigh n || isLow n then none
    else (characters? rest).map (Char.ofNat n :: ·)

/-- A string after its opening quote. -/
def string? (s : List Char) : Option (Option String × List Char) :=
  (pieces? s).map fun p => ((characters? p.1).map String.ofList, p.2)

/-! ### Values -/

mutual

/-- A value and what follows it. -/
def value? : Nat → List Char → Option (Json × List Char)
  | 0, _ => none
  | n + 1, s =>
    match skip s with
    | '"' :: rest => (string? rest).map fun p => (.string p.1, p.2)
    | '[' :: rest =>
      match skip rest with
      | ']' :: rest => some (.array [], rest)
      | rest => (elements? n rest).map fun p => (.array p.1, p.2)
    | '\x7b' :: rest =>
      match skip rest with
      | '\x7d' :: rest => some (.object [], rest)
      | rest => (members? n rest).map fun p => (.object p.1, p.2)
    | 'n' :: rest => (word? "ull".toList rest).map fun rest => (.null, rest)
    | 't' :: rest => (word? "rue".toList rest).map fun rest => (.bool true, rest)
    | 'f' :: rest => (word? "alse".toList rest).map fun rest => (.bool false, rest)
    | rest => (number? rest).map fun p => (.number p.1, p.2)

/-- Elements up to the closing bracket, and what follows it. -/
def elements? : Nat → List Char → Option (List Json × List Char)
  | 0, _ => none
  | n + 1, s =>
    match value? n s with
    | none => none
    | some (v, rest) =>
      match skip rest with
      | ']' :: rest => some ([v], rest)
      | ',' :: rest => (elements? n rest).map fun p => (v :: p.1, p.2)
      | _ => none

/-- Members up to the closing brace, and what follows it. -/
def members? : Nat → List Char → Option (List (Option String × Json) × List Char)
  | 0, _ => none
  | n + 1, s =>
    match skip s with
    | '"' :: rest =>
      match string? rest with
      | none => none
      | some (name, rest) =>
        match skip rest with
        | ':' :: rest =>
          match value? n rest with
          | none => none
          | some (v, rest) =>
            match skip rest with
            | '\x7d' :: rest => some ([(name, v)], rest)
            | ',' :: rest => (members? n rest).map fun p => ((name, v) :: p.1, p.2)
            | _ => none
        | _ => none
    | _ => none

end

/-- The value of a text, which holds nothing else. -/
def ofChars? (s : List Char) : Option Json :=
  match value? (2 * s.length + 2) s with
  | some (v, rest) => if skip rest = [] then some v else none
  | none => none

/-- The value of a text, which holds nothing else. -/
def ofText? (text : String) : Option Json :=
  ofChars? text.toList

end Custody.Json
