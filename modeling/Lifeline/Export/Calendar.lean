/-! Days of the Gregorian calendar, extended to all years, by their number from 1970-01-01. -/

set_option autoImplicit false

namespace Lifeline

structure Date where
  year : Int
  month : Nat
  day : Nat
  deriving DecidableEq, Repr

namespace Date

def isLeap (year : Int) : Bool := year % 4 == 0 && (year % 100 != 0 || year % 400 == 0)

def monthLengths (year : Int) : List Nat :=
  [31, if isLeap year then 29 else 28, 31, 30, 31, 30, 31, 31, 30, 31, 30, 31]

def isValid (date : Date) : Bool :=
  1 ≤ date.month && date.month ≤ 12 && 1 ≤ date.day &&
    date.day ≤ (monthLengths date.year).getD (date.month - 1) 0

def daysBefore (year : Int) : Int :=
  let last := year - 1
  365 * year + Int.fdiv last 4 - Int.fdiv last 100 + Int.fdiv last 400 + 1

def daysBeforeMonth (year : Int) (month : Nat) : Nat :=
  ((monthLengths year).take (month - 1)).foldr (· + ·) 0

def toDays (date : Date) : Int :=
  daysBefore date.year - daysBefore 1970 + daysBeforeMonth date.year date.month + date.day - 1

def monthOf : Nat → List Nat → Nat → Nat × Nat
  | month, length :: rest, days =>
    if days < length then (month, days + 1) else monthOf (month + 1) rest (days - length)
  | month, [], days => (month, days + 1)

/-- The year of a day, counted from the start of year zero. A year has at most 366 days, so the guess
is at most a few years early. -/
def yearOf (days : Int) : Int :=
  let guess := Int.fdiv (days * 400) 146097
  if days < daysBefore guess then guess - 1
  else if days < daysBefore (guess + 1) then guess
  else guess + 1

def ofDays (days : Int) : Date :=
  let fromZero := days + daysBefore 1970
  let year := yearOf fromZero
  let (month, day) := monthOf 1 (monthLengths year) (fromZero - daysBefore year).toNat
  ⟨year, month, day⟩

end Date

end Lifeline
