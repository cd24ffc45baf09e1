/-
Points in time as dates.

Dates are those of the Gregorian calendar, extended in both directions, in universal
time.  The days of a year are counted from the first of March, so that a leap day is
the last day of its year, and years are counted in spans of four hundred, which all
have the same number of days.
-/
import Custody.Text.Decimal
import Custody.Timestamp

namespace Custody

/-- A date. -/
structure Date where
  year : Nat
  month : Nat
  day : Nat
deriving DecidableEq

namespace Date

/-- Days in four hundred years. -/
def daysInSpan : Nat := 146097

/-- Days from the first of March of the year 0 to the start of 1970. -/
def daysToEpoch : Nat := 719468

/-- The date a number of days after the start of 1970. -/
def ofDays (days : Nat) : Date :=
  let fromMarch := days + daysToEpoch
  let span := fromMarch / daysInSpan
  let inSpan := fromMarch % daysInSpan
  let yearInSpan := (inSpan - inSpan / 1460 + inSpan / 36524 - inSpan / 146096) / 365
  let dayOfYear := inSpan - (365 * yearInSpan + yearInSpan / 4 - yearInSpan / 100)
  let monthFromMarch := (5 * dayOfYear + 2) / 153
  let day := dayOfYear - (153 * monthFromMarch + 2) / 5 + 1
  let month := if monthFromMarch < 10 then monthFromMarch + 3 else monthFromMarch - 9
  let year := 400 * span + yearInSpan + if month ≤ 2 then 1 else 0
  ⟨year, month, day⟩

/-- Four digits; later years have more digits and a sign. -/
def yearChars (year : Nat) : List Char :=
  if year ≤ 9999 then Decimal.padded 4 year else '+' :: Decimal.digits year

/-- Year, month and day with hyphens between them. -/
def chars (d : Date) : List Char :=
  yearChars d.year ++ '-' :: Decimal.padded 2 d.month ++ '-' :: Decimal.padded 2 d.day

end Date

namespace Timestamp

/-- The last second that is written as a date. -/
def lastDated : Nat := 8210266876799

/-- A point in time as date, time of day and offset; beyond the last dated second the
plain number is written. -/
def format (t : Timestamp) : String :=
  let seconds := t.toNat
  if lastDated < seconds then toString seconds
  else
    let inDay := seconds % 86400
    let two := Decimal.padded 2
    String.ofList ((Date.ofDays (seconds / 86400)).chars ++ 'T' :: two (inDay / 3600)
      ++ ':' :: two (inDay / 60 % 60) ++ ':' :: two (inDay % 60) ++ "+00:00".toList)

end Timestamp

end Custody
