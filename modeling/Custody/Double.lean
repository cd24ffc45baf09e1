/-
Numbers of double precision.

A number that is not negative is a mantissa of at most fifty-three bits times a power
of two.  An exact quotient is rounded to the nearest such number, and of two that are
equally near to the one with the even mantissa.  All of it is done on natural numbers.

A number is written with the fewest digits that are rounded back to it.  The grids of
decimals are tried from the coarsest on; a grid has a point that is rounded back if one
of the two neighbours of the number on it is.
-/
import Custody.Text.Decimal

namespace Custody

/-- A mantissa times two to the power of the exponent. -/
structure Double where
  mantissa : Nat
  exponent : Int
deriving DecidableEq

namespace Double

/-! ### Rounding -/

/-- A quotient as numerator and denominator, times a base to the power of an exponent. -/
def scale (base : Nat) (exponent : Int) (quotient : Nat × Nat) : Nat × Nat :=
  let power := Nat.pow base exponent.natAbs
  if exponent < 0 then (quotient.1, quotient.2 * power) else (quotient.1 * power, quotient.2)

/-- The nearest whole number to a quotient; halfway between two it is the even one. -/
def nearest (quotient : Nat × Nat) : Nat :=
  let whole := quotient.1 / quotient.2
  let twice := 2 * (quotient.1 % quotient.2)
  if quotient.2 < twice ∨ (twice = quotient.2 ∧ whole % 2 = 1) then whole + 1 else whole

/-- The exponent of the largest power of two that a positive quotient reaches. -/
def magnitude (quotient : Nat × Nat) : Int :=
  let guess : Int := quotient.1.log2 - quotient.2.log2
  let scaled := scale 2 (-guess) quotient
  if scaled.1 < scaled.2 then guess - 1 else guess

/-- The smallest exponent. -/
def minExponent : Int := -1074

/-- The largest exponent. -/
def maxExponent : Int := 971

/-- Two to the power of fifty-three, which mantissas stay below. -/
def mantissas : Nat := 9007199254740992

/-- Zero. -/
def zero : Double := ⟨0, minExponent⟩

/-- The nearest number to a quotient, none if that is too large. -/
def ofQuotient? (quotient : Nat × Nat) : Option Double :=
  if quotient.1 = 0 then some zero
  else
    let exponent := max (magnitude quotient - 52) minExponent
    let mantissa := nearest (scale 2 (-exponent) quotient)
    let rounded : Double :=
      if mantissa = mantissas then ⟨mantissas / 2, exponent + 1⟩ else ⟨mantissa, exponent⟩
    if maxExponent < rounded.exponent then none else some rounded

/-- The quotient that a number is. -/
def quotient (d : Double) : Nat × Nat :=
  scale 2 d.exponent (d.mantissa, 1)

/-! ### Reading decimals -/

/-- The product of two numbers, rounded. -/
def times? (a b : Double) : Option Double :=
  ofQuotient? (a.quotient.1 * b.quotient.1, a.quotient.2 * b.quotient.2)

/-- The quotient of two numbers, rounded. -/
def over? (a b : Double) : Option Double :=
  ofQuotient? (a.quotient.1 * b.quotient.2, a.quotient.2 * b.quotient.1)

/-- The largest exponent of a power of ten that is a number. -/
def maxTens : Nat := 308

/-- A power of ten, rounded. -/
def tens? (exponent : Nat) : Option Double :=
  ofQuotient? (Nat.pow 10 exponent, 1)

/-- A whole number times a power of ten.  The whole number, the power and their product
are each rounded; a negative power beyond the range is taken in two steps. -/
def ofDecimal? (digits : Nat) (exponent : Int) : Option Double := do
  let whole ← ofQuotient? (digits, 1)
  let places := exponent.natAbs
  if digits = 0 then return zero
  if 0 ≤ exponent then
    if maxTens < places then none else times? whole (← tens? places)
  else if places ≤ maxTens then over? whole (← tens? places)
  else if places ≤ 2 * maxTens then
    over? (← over? whole (← tens? maxTens)) (← tens? (places - maxTens))
  else return zero

/-! ### Writing decimals -/

/-- Four times a number and the ends of the range of what is rounded to it, in quarters of
its last place.  Below a power of two the numbers are twice as dense. -/
def range (d : Double) : Nat × Nat × Nat :=
  let quarters := 4 * d.mantissa
  let below := if d.mantissa = mantissas / 2 ∧ minExponent < d.exponent then 1 else 2
  (quarters - below, quarters, quarters + 2)

/-- Whether a point of a decimal grid is rounded to a number; `grid` turns quarters of its
last place into steps of the grid. -/
def isHit (d : Double) (grid : Nat × Nat) (point : Nat) : Bool :=
  let (low, _, high) := d.range
  if d.mantissa % 2 = 0 then
    low * grid.1 ≤ point * grid.2 && point * grid.2 ≤ high * grid.1
  else low * grid.1 < point * grid.2 && point * grid.2 < high * grid.1

/-- The point of a grid that is rounded to a number, the nearer one if there are two. -/
def hit? (d : Double) (tens : Int) : Option (Nat × Int) :=
  let grid := scale 10 (-tens) (scale 2 (d.exponent - 2) (1, 1))
  let quotient := (d.range.2.1 * grid.1, grid.2)
  let below := quotient.1 / quotient.2
  match isHit d grid below, isHit d grid (below + 1) with
  | true, true => some (nearest quotient, tens)
  | true, false => some (below, tens)
  | false, true => some (below + 1, tens)
  | false, false => none

/-- The fewest digits that are rounded to a number, and their power of ten. -/
def shortest (d : Double) : Nat × Int :=
  if d.mantissa = 0 then (0, 0)
  else ((List.range 640).findSome? fun (i : Nat) => hit? d (310 - i)).getD (0, 0)

end Double

end Custody
