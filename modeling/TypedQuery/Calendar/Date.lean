import TypedQuery.Number.Rounding

/-!
# Calendar dates

Dates are those of the proleptic Gregorian calendar between the years -262143 and 262142.  A day
number counts days from the first of January 2000; numbers outside the years have no date.
-/

namespace TypedQuery
namespace Calendar

def isLeapYear (year : Int) : Bool :=
  (year % 4 == 0 && year % 100 != 0) || year % 400 == 0

/-- Days of a month; there are none outside 1 to 12. -/
def daysInMonth (year : Int) (month : Nat) : Nat :=
  match month with
  | 1 | 3 | 5 | 7 | 8 | 10 | 12 => 31
  | 4 | 6 | 9 | 11 => 30
  | 2 => if isLeapYear year then 29 else 28
  | _ => 0

def isDay (year : Int) (month day : Nat) : Bool :=
  -262143 ≤ year && year ≤ 262142 && 1 ≤ day && day ≤ daysInMonth year month

structure Date where
  year : Int
  month : Nat
  day : Nat
  valid : isDay year month day = true := by decide
deriving DecidableEq

namespace Date

instance : Inhabited Date := ⟨{ year := 2000, month := 1, day := 1 }⟩

def ofYmd? (year : Int) (month day : Nat) : Option Date :=
  if h : isDay year month day = true then some ⟨year, month, day, h⟩ else none

theorem ofYmd?_self (d : Date) : ofYmd? d.year d.month d.day = some d := by
  simp [ofYmd?, d.valid]

/-!
## Day numbers

Years are counted from the first of March, so that the leap day ends a year; 400 years are
146097 days, and the first of January 2000 is day 730425 from the first of March of year 0.
-/

/-- Days before the first of a month, counted from March. -/
def daysBefore (monthFromMarch : Nat) : Nat := (153 * monthFromMarch + 2) / 5

/-- The number of a day of any year. -/
def dayNumber (year : Int) (month day : Nat) : Int :=
  let yearFromMarch := if month ≤ 2 then year - 1 else year
  let monthFromMarch := (month + 9) % 12
  let era := yearFromMarch.fdiv 400
  let yearOfEra := yearFromMarch.fmod 400
  let dayOfEra :=
    yearOfEra * 365 + yearOfEra / 4 - yearOfEra / 100 + daysBefore monthFromMarch + (day - 1)
  era * 146097 + dayOfEra - 730425

def toDayNumber (d : Date) : Int := dayNumber d.year d.month d.day

def ofDayNumber? (number : Int) : Option Date :=
  let shifted := number + 730425
  let era := shifted.fdiv 146097
  let dayOfEra := (shifted.fmod 146097).toNat
  let yearOfEra := (dayOfEra - dayOfEra / 1460 + dayOfEra / 36524 - dayOfEra / 146096) / 365
  let dayOfYear := dayOfEra - (365 * yearOfEra + yearOfEra / 4 - yearOfEra / 100)
  let monthFromMarch := (5 * dayOfYear + 2) / 153
  let day := dayOfYear - daysBefore monthFromMarch + 1
  let month := if monthFromMarch < 10 then monthFromMarch + 3 else monthFromMarch - 9
  let year := era * 400 + yearOfEra + (if month ≤ 2 then 1 else 0)
  ofYmd? year month day

/-!
## Text

Years of one to four digits have four digits; the others carry their sign.
-/

private def yearText (year : Int) : String :=
  if 0 ≤ year ∧ year ≤ 9999 then Number.padded 4 year.toNat
  else (if year < 0 then "-" else "+") ++ Number.padded 4 year.natAbs

def toText (d : Date) : String :=
  yearText d.year ++ "-" ++ Number.padded 2 d.month ++ "-" ++ Number.padded 2 d.day

end Date

end Calendar
end TypedQuery
