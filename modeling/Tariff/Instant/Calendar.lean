/-
  Tariff.Instant.Calendar — the Gregorian calendar on day numbers.

  Day 0 is 1970-01-01. A date and its day number determine each other: years are counted from
  March, so that the leap day is the last day of a year, and four hundred years are one cycle
  of 146097 days.
-/

namespace Tariff

/-- A date of the proleptic Gregorian calendar. -/
structure Date where
  year : Int
  month : Nat
  day : Nat
  deriving DecidableEq, Repr

namespace Date

def isLeapYear (y : Int) : Bool := y % 4 == 0 && (y % 100 != 0 || y % 400 == 0)

def daysInMonth (y : Int) (m : Nat) : Nat :=
  if m = 2 then (if isLeapYear y then 29 else 28)
  else if m = 4 ∨ m = 6 ∨ m = 9 ∨ m = 11 then 30
  else 31

/-- The years that can be written. -/
def firstYear : Int := -262143
def lastYear : Int := 262142

/-- A date that the calendar has, in a year that can be written. -/
def isValid (d : Date) : Bool :=
  firstYear ≤ d.year && d.year ≤ lastYear && 1 ≤ d.month && d.month ≤ 12
    && 1 ≤ d.day && d.day ≤ daysInMonth d.year d.month

/-- Days from the first day of a cycle's first year, in March, to 1970-01-01. -/
def epochShift : Int := 719468

/-- Days of a cycle of four hundred years. -/
def cycleDays : Int := 146097

/-- The day of a year counted from March, for a month counted from March. -/
def dayOfShiftedYear (month day : Int) : Int := (153 * month + 2) / 5 + day - 1

/-- The number of a day. -/
def toDays (d : Date) : Int :=
  let m : Int := d.month
  let y := if m ≤ 2 then d.year - 1 else d.year
  let cycle := y / 400
  let yearOfCycle := y - cycle * 400
  let month := if m ≤ 2 then m + 9 else m - 3
  let dayOfCycle := yearOfCycle * 365 + yearOfCycle / 4 - yearOfCycle / 100
    + dayOfShiftedYear month d.day
  cycle * cycleDays + dayOfCycle - epochShift

/-- The date of a day number. -/
def ofDays (n : Int) : Date :=
  let z := n + epochShift
  let cycle := z / cycleDays
  let dayOfCycle := z - cycle * cycleDays
  let yearOfCycle :=
    (dayOfCycle - dayOfCycle / 1460 + dayOfCycle / 36524 - dayOfCycle / 146096) / 365
  let dayOfYear := dayOfCycle - (365 * yearOfCycle + yearOfCycle / 4 - yearOfCycle / 100)
  let month := (5 * dayOfYear + 2) / 153
  let day := dayOfYear - (153 * month + 2) / 5 + 1
  let m := if month < 10 then month + 3 else month - 9
  let y := yearOfCycle + cycle * 400
  ⟨if m ≤ 2 then y + 1 else y, m.toNat, day.toNat⟩

end Date

end Tariff
