/-
JSON values and their texts.

An object keeps its members in order, repeated names included.  A string may have no
text: its escapes can leave half of a surrogate pair standing alone, which is well
formed but stands for no characters.

The compact text has no blanks.  The pretty text puts each element and each member on
a line of its own, indented by two blanks for each level.

Where nothing is known of the type of a value, it is kept as a tree of plain parts:
whole numbers of one word, other numbers of double precision, strings with a text, and
objects whose members are sorted.
-/
import Custody.Double
import Custody.Text.Hex

namespace Custody

namespace Json

/-- A number: an integer or one with a fraction or an exponent. -/
inductive Number where
  | integer (negative : Bool) (magnitude : Nat)
  /-- A mantissa of one word times ten to the power of the exponent. -/
  | decimal (negative : Bool) (mantissa : Nat) (exponent : Int)
deriving DecidableEq

end Json

/-- A JSON value. -/
inductive Json where
  | null
  | bool (b : Bool)
  | number (n : Json.Number)
  /-- A string, without a text if a surrogate stands alone. -/
  | string (text : Option String)
  | array (elements : List Json)
  | object (members : List (Option String × Json))

namespace Json

/-! ### Making values -/

/-- A string with a text. -/
def text (s : String) : Json := .string (some s)

/-- A natural number. -/
def natural (n : Nat) : Json := .number (.integer false n)

/-- An object with these members. -/
def record (members : List (String × Json)) : Json :=
  .object (members.map fun m => (some m.1, m.2))

/-- The mantissa and the exponent of digits before and after a point.  The mantissa is one
word: digits that would take it beyond are left out, first those at the end of the whole
part and then those at the end of the fraction. -/
def oneWord (whole fraction : List Char) : Nat × Int :=
  let (n, excess) := Decimal.appendBelow UInt64.size 0 whole
  let (mantissa, rest) := Decimal.appendBelow UInt64.size n fraction
  (mantissa, excess.length + rest.length - fraction.length)

/-! ### Writing strings and numbers -/

/-- A character inside a string.  Quotes, backslashes and control characters are escaped. -/
def escape (c : Char) : List Char :=
  if c = '"' then ['\\', '"']
  else if c = '\\' then ['\\', '\\']
  else if c = '\n' then ['\\', 'n']
  else if c = '\r' then ['\\', 'r']
  else if c = '\t' then ['\\', 't']
  else if c = '\x08' then ['\\', 'b']
  else if c = '\x0c' then ['\\', 'f']
  else if c.toNat < 32 then
    ['\\', 'u', '0', '0', Hex.digit (c.toNat / 16), Hex.digit (c.toNat % 16)]
  else [c]

/-- A text in quotes. -/
def quote (s : String) : List Char :=
  '"' :: s.toList.flatMap escape ++ ['"']

/-- A string in quotes; one without a text is written empty. -/
def quoteString (s : Option String) : List Char :=
  quote (s.getD "")

/-- A minus sign or nothing. -/
def sign (negative : Bool) : List Char :=
  if negative then ['-'] else []

/-- The digits of a decimal with a point among them, after them or before them. -/
def positional (digits : List Char) (point : Int) : List Char :=
  let places := point.natAbs
  if point ≤ 0 then '0' :: '.' :: List.replicate places '0' ++ digits
  else if places < digits.length then digits.take places ++ '.' :: digits.drop places
  else digits ++ List.replicate (places - digits.length) '0' ++ ['.', '0']

/-- The digits of a decimal with a point after the first one, and an exponent with a sign. -/
def scientific (digits : List Char) (exponent : Int) : List Char :=
  digits.take 1 ++ (if digits.length = 1 then [] else '.' :: digits.drop 1)
    ++ 'e' :: (if exponent < 0 then '-' else '+') :: Decimal.digits exponent.natAbs

/-- A decimal, with an exponent from `1e+16` on and below `1e-5`. -/
def decimalChars (mantissa : Nat) (exponent : Int) : List Char :=
  let digits := Decimal.digits mantissa
  let point := digits.length + exponent
  if mantissa = 0 then ['0', '.', '0']
  else if -5 < point ∧ point ≤ 16 then positional digits point
  else scientific digits (point - 1)

/-- The text of a number. -/
def Number.chars : Number → List Char
  | .integer negative magnitude => sign negative ++ Decimal.digits magnitude
  | .decimal negative mantissa exponent => sign negative ++ decimalChars mantissa exponent

/-! ### Compact texts -/

mutual

/-- The compact text of a value. -/
def compactChars : Json → List Char
  | .null => "null".toList
  | .bool true => "true".toList
  | .bool false => "false".toList
  | .number n => n.chars
  | .string s => quoteString s
  | .array elements => '[' :: compactElements elements ++ [']']
  | .object members => '\x7b' :: compactMembers members ++ ['\x7d']

/-- The compact texts of elements, with commas between them. -/
def compactElements : List Json → List Char
  | [] => []
  | [v] => compactChars v
  | v :: w :: rest => compactChars v ++ ',' :: compactElements (w :: rest)

/-- The compact texts of members, with commas between them. -/
def compactMembers : List (Option String × Json) → List Char
  | [] => []
  | [(name, v)] => quoteString name ++ ':' :: compactChars v
  | (name, v) :: m :: rest =>
    quoteString name ++ ':' :: compactChars v ++ ',' :: compactMembers (m :: rest)

end

/-- The compact text of a value. -/
def compact (v : Json) : String :=
  String.ofList v.compactChars

/-! ### Pretty texts -/

/-- A new line at a level. -/
def newline (level : Nat) : List Char :=
  '\n' :: List.replicate (2 * level) ' '

mutual

/-- The pretty text of a value whose line stands at a level. -/
def prettyChars (level : Nat) : Json → List Char
  | .null => "null".toList
  | .bool true => "true".toList
  | .bool false => "false".toList
  | .number n => n.chars
  | .string s => quoteString s
  | .array [] => ['[', ']']
  | .array (v :: rest) =>
    '[' :: newline (level + 1) ++ prettyElements (level + 1) (v :: rest)
      ++ newline level ++ [']']
  | .object [] => ['\x7b', '\x7d']
  | .object (m :: rest) =>
    '\x7b' :: newline (level + 1) ++ prettyMembers (level + 1) (m :: rest)
      ++ newline level ++ ['\x7d']

/-- The pretty texts of elements, a line for each. -/
def prettyElements (level : Nat) : List Json → List Char
  | [] => []
  | [v] => prettyChars level v
  | v :: w :: rest =>
    prettyChars level v ++ ',' :: newline level ++ prettyElements level (w :: rest)

/-- The pretty texts of members, a line for each. -/
def prettyMembers (level : Nat) : List (Option String × Json) → List Char
  | [] => []
  | [(name, v)] => quoteString name ++ ':' :: ' ' :: prettyChars level v
  | (name, v) :: m :: rest =>
    quoteString name ++ ':' :: ' ' :: prettyChars level v
      ++ ',' :: newline level ++ prettyMembers level (m :: rest)

end

/-- The pretty text of a value. -/
def pretty (v : Json) : String :=
  String.ofList (v.prettyChars 0)

/-! ### Values of unknown type -/

/-- A number of double precision, none if it is too large. -/
def Number.double? (negative : Bool) (mantissa : Nat) (exponent : Int) : Option Number :=
  (Double.ofDecimal? mantissa exponent).map fun d =>
    .decimal negative d.shortest.1 d.shortest.2

/-- Whether a whole number is one word, with a sign or without. -/
def isWord (negative : Bool) (n : Nat) : Bool :=
  if negative then 0 < n ∧ 2 * n ≤ UInt64.size else n < UInt64.size

/-- A number as it is kept: whole numbers of one word are exact. -/
def Number.untyped? : Number → Option Number
  | .integer negative n =>
    if isWord negative n then some (.integer negative n)
    else
      let (mantissa, exponent) := oneWord (Decimal.digits n) []
      double? negative mantissa exponent
  | .decimal negative mantissa exponent => double? negative mantissa exponent

/-- Put a member before those with a greater name, unless the name is there already. -/
def place (name : String) (v : Json) :
    List (Option String × Json) → List (Option String × Json)
  | [] => [(some name, v)]
  | m :: rest =>
    if m.1 = some name then m :: rest
    else if name < m.1.getD "" then (some name, v) :: m :: rest
    else m :: place name v rest

mutual

/-- A value as it is kept; of members with the same name the last one counts. -/
def untyped? : Json → Option Json
  | .number n => n.untyped?.map .number
  | .string none => none
  | .array elements => (untypedElements? elements).map .array
  | .object members => (untypedMembers? members).map .object
  | v => some v

/-- Elements as they are kept. -/
def untypedElements? : List Json → Option (List Json)
  | [] => some []
  | v :: rest => do return (← untyped? v) :: (← untypedElements? rest)

/-- Members as they are kept. -/
def untypedMembers? : List (Option String × Json) → Option (List (Option String × Json))
  | [] => some []
  | (none, _) :: _ => none
  | (some name, v) :: rest => do return place name (← untyped? v) (← untypedMembers? rest)

end

end Json

end Custody
