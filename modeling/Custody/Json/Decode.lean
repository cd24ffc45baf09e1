/-
Values of known type in JSON.

A record is an object with each of its fields once, in any order and among others
that are ignored, or an array of just its fields in order.  An alternative is an
object whose one member names it and holds its fields; an alternative without fields
may also be a string.  A natural number is written without sign, fraction or exponent.
-/
import Custody.Json.Reader
import Custody.Event

namespace Custody.Json

/-! ### Numbers, flags and texts -/

/-- A natural number below a bound. -/
def toNat? (bound : Nat) : Json → Option Nat
  | .number (.integer false n) => if n < bound then some n else none
  | _ => none

/-- A word of sixty-four bits. -/
def toWord? (v : Json) : Option UInt64 :=
  (v.toNat? UInt64.size).map UInt64.ofNat

/-- An amount. -/
def toAmount? (v : Json) : Option Amount :=
  (v.toNat? Amount.size).bind Amount.ofNat?

/-- A flag. -/
def toBool? : Json → Option Bool
  | .bool b => some b
  | _ => none

/-- A string that has a text. -/
def toText? : Json → Option String
  | .string s => s
  | _ => none

/-- The address of a text. -/
def addressOf? (text : String) : Option Address :=
  (Address.ofHex text).toOption

/-- An address. -/
def toAddress? (v : Json) : Option Address :=
  v.toText?.bind addressOf?

/-! ### Records -/

/-- Members whose names all have a text. -/
def named? (members : List (Option String × Json)) : Option (List (String × Json)) :=
  members.mapM fun m => m.1.map fun name => (name, m.2)

/-- The value of a member that must not occur twice: `some none` if there is none. -/
def once? (name : String) (members : List (String × Json)) : Option (Option Json) :=
  match members.filter fun m => m.1 = name with
  | [] => some none
  | [m] => some (some m.2)
  | _ => none

/-- The fields of a record by name, each of them there or not. -/
def optionalFields? (names : List String) : Json → Option (List (Option Json))
  | .object members => do
    let members ← named? members
    names.mapM fun name => once? name members
  | .array elements =>
    if elements.length ≤ names.length then
      some (elements.map some ++ List.replicate (names.length - elements.length) none)
    else none
  | _ => none

/-- The fields of a record by name, all of them there. -/
def fields? (names : List String) (v : Json) : Option (List Json) := do
  (← v.optionalFields? names).mapM id

/-! ### Alternatives -/

/-- The name of an alternative and its content; a string has no content. -/
def alternative? : Json → Option (String × Option Json)
  | .string (some name) => some (name, none)
  | .object [(some name, v)] => some (name, some v)
  | _ => none

/-- The name of an alternative without fields. -/
def tag? (v : Json) : Option String :=
  match v.alternative? with
  | some (name, none) => some name
  | some (name, some .null) => some name
  | _ => none

end Custody.Json
