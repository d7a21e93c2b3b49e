/-!
# The civil calendar

Dates of the Gregorian calendar, extended without limit in both directions, and their numbering by
days: day `0` is 1 January 1970.
-/

namespace Occupancy

/-- A date of the Gregorian calendar. Year `0` is the year before year `1`. -/
structure Date where
  year : Int
  month : Nat
  day : Nat
deriving DecidableEq

namespace Date

/-! ## Years and months -/

/-- Leap years: every fourth, except the centuries that four hundred does not divide. -/
def isLeap (year : Int) : Bool :=
  year % 4 = 0 && (year % 100 ≠ 0 || year % 400 = 0)

/-- Days from 1 January of year 1 to 1 January of `year`. -/
def daysBefore (year : Int) : Int :=
  365 * (year - 1) + (year - 1) / 4 - (year - 1) / 100 + (year - 1) / 400

def monthLengths (year : Int) : List Nat :=
  [31, if isLeap year then 29 else 28, 31, 30, 31, 30, 31, 31, 30, 31, 30, 31]

/-- The length of one month; months are counted from 1. -/
def monthLength (year : Int) (month : Nat) : Nat :=
  ((monthLengths year)[month - 1]?).getD 0

def Valid (d : Date) : Prop :=
  1 ≤ d.month ∧ d.month ≤ 12 ∧ 1 ≤ d.day ∧ d.day ≤ monthLength d.year d.month

instance (d : Date) : Decidable d.Valid :=
  inferInstanceAs (Decidable (_ ∧ _))

/-! ## Day numbers -/

/-- The distance of 1 January 1970 from 1 January of year 1. -/
def epoch : Int :=
  719162

def toDay (d : Date) : Int :=
  let months := ((monthLengths d.year).take (d.month - 1)).foldr Nat.add 0
  daysBefore d.year + months + (d.day - 1) - epoch

/-- The year that holds the day at distance `n` from 1 January of year 1. The mean length of a year
gives it up to one year either way. -/
def yearAt (n : Int) : Int :=
  let guess := n * 400 / 146097 + 1
  if n < daysBefore guess then guess - 1
  else if daysBefore (guess + 1) ≤ n then guess + 1
  else guess

/-- Month and day of month at distance `n` from the first day of month `month`. -/
def monthAt : List Nat → Nat → Nat → Nat × Nat
  | [], month, n => (month, n + 1)
  | length :: rest, month, n =>
    if n < length then (month, n + 1) else monthAt rest (month + 1) (n - length)

def ofDay (day : Int) : Date :=
  let n := day + epoch
  let year := yearAt n
  let (month, dayOfMonth) := monthAt (monthLengths year) 1 (n - daysBefore year).toNat
  ⟨year, month, dayOfMonth⟩

end Date

end Occupancy
