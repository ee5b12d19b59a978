import PrgScript.Text.Basic

/-!
# Dates

Points in time are counted in microseconds from the start of the year 1970 and shown
by the Gregorian calendar in universal time.
-/

namespace PrgScript.Calendar

/-- A day of the Gregorian calendar. -/
structure Date where
  year : Int
  month : Nat
  day : Nat
deriving DecidableEq, Repr

/-- The date of a day counted from 1 January 1970. Days are counted in cycles of 400 years that
start on 1 March, so that a leap day ends its year. -/
def dateOfDay (day : Int) : Date :=
  let shifted := day + 719468
  let cycle := shifted.fdiv 146097
  let dayOfCycle := (shifted.fmod 146097).toNat
  let yearOfCycle :=
    (dayOfCycle - dayOfCycle / 1460 + dayOfCycle / 36524 - dayOfCycle / 146096) / 365
  let dayOfYear := dayOfCycle - (365 * yearOfCycle + yearOfCycle / 4 - yearOfCycle / 100)
  let monthFromMarch := (5 * dayOfYear + 2) / 153
  let month := if monthFromMarch < 10 then monthFromMarch + 3 else monthFromMarch - 9
  { year := yearOfCycle + cycle * 400 + if month ≤ 2 then 1 else 0
    month
    day := dayOfYear - (153 * monthFromMarch + 2) / 5 + 1 }

/-- The digits of a year, at least four of them. -/
def yearText (year : Int) : Text :=
  Text.onlyIf (year < 0) "-" ++ Text.padZero 4 (Text.ofNat year.natAbs)

def twoDigits (n : Nat) : Text := Text.padZero 2 (Text.ofNat n)

/-- Date and time of day of a number of microseconds, to the microsecond. -/
def timestamp (microseconds : Int) : Text :=
  let seconds := microseconds.fdiv 1000000
  let fraction := (microseconds.fmod 1000000).toNat
  let date := dateOfDay (seconds.fdiv 86400)
  let second := (seconds.fmod 86400).toNat
  yearText date.year ++ "-" ++ twoDigits date.month ++ "-" ++ twoDigits date.day ++ "T" ++
    twoDigits (second / 3600) ++ ":" ++ twoDigits (second / 60 % 60) ++ ":" ++
    twoDigits (second % 60) ++ "." ++ Text.padZero 6 (Text.ofNat fraction) ++ "Z"

/-- Date and time of day of a number of microseconds as digits only, to the second. -/
def stamp (microseconds : Int) : Text :=
  let seconds := microseconds.fdiv 1000000
  let date := dateOfDay (seconds.fdiv 86400)
  let second := (seconds.fmod 86400).toNat
  yearText date.year ++ twoDigits date.month ++ twoDigits date.day ++ twoDigits (second / 3600) ++
    twoDigits (second / 60 % 60) ++ twoDigits (second % 60)

end PrgScript.Calendar
