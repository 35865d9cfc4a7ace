/-! # The calendar

Days are counted from 1 January of the year 1, which is day `0`, in both
directions, by **the rule of the Gregorian calendar for all years**: every fourth
year is a leap year, but not a full hundred unless it is a full four hundred.
The year `0` comes before the year `1`.
-/
namespace Placement

/-- A day of the calendar. -/
@[ext]
structure Date where
  year : Int
  /-- From 1 on. -/
  month : Nat
  /-- From 1 on. -/
  day : Nat
  deriving DecidableEq, Repr

namespace Calendar

/-- Whether the year has 366 days. -/
def isLeap (year : Int) : Bool := year % 4 = 0 && (year % 100 ≠ 0 || year % 400 = 0)

/-- How many days a month has. -/
def monthLength (year : Int) (month : Nat) : Nat :=
  match month with
  | 2 => if isLeap year then 29 else 28
  | 4 | 6 | 9 | 11 => 30
  | _ => 31

/-- The number of 1 January of a year. -/
def dayOfYear (year : Int) : Int :=
  let before := year - 1
  365 * before + before / 4 - before / 100 + before / 400

/-- How many days of a year lie before a month. -/
def daysBeforeMonth (year : Int) (month : Nat) : Nat :=
  (List.range (month - 1)).foldl (fun days m => days + monthLength year (m + 1)) 0

/-- The number of a day. -/
def dayNumber (date : Date) : Int :=
  dayOfYear date.year + daysBeforeMonth date.year date.month + (date.day - 1 : Nat)

/-- The year that holds a day: the average length of years gives it up to one. -/
def yearOfDay (n : Int) : Int :=
  let guess := n * 400 / 146097 + 1
  if n < dayOfYear guess then guess - 1
  else if dayOfYear (guess + 1) ≤ n then guess + 1
  else guess

/-- The month and day of a year, from the months from `month` on; `left` days lie
before the day, and `fuel` months follow. -/
def monthAndDay (year : Int) : Nat → Nat → Nat → Nat × Nat
  | 0, month, left => (month, left + 1)
  | fuel + 1, month, left =>
      if left < monthLength year month then (month, left + 1)
      else monthAndDay year fuel (month + 1) (left - monthLength year month)

/-- The day with a number. -/
def dateOfDay (n : Int) : Date :=
  let year := yearOfDay n
  let (month, day) := monthAndDay year 11 1 (n - dayOfYear year).toNat
  ⟨year, month, day⟩

/-- Whether the calendar has the day. -/
def isValid (date : Date) : Bool :=
  1 ≤ date.month && date.month ≤ 12 && 1 ≤ date.day && date.day ≤ monthLength date.year date.month

/-- The day so many months later; a day that its month does not have becomes the last
one of the month. -/
def addMonths (date : Date) (months : Nat) : Date :=
  let total := date.year * 12 + ((date.month - 1 : Nat) : Int) + months
  let year := total / 12
  let month := (total % 12).toNat + 1
  ⟨year, month, min date.day (monthLength year month)⟩

example : dateOfDay (dayNumber ⟨2024, 2, 29⟩) = ⟨2024, 2, 29⟩ := by decide
example : dateOfDay (dayNumber ⟨-1, 12, 31⟩) = ⟨-1, 12, 31⟩ := by decide
example : dayNumber ⟨0, 1, 1⟩ = -366 := by decide
example : addMonths ⟨2023, 12, 31⟩ 2 = ⟨2024, 2, 29⟩ := by decide

end Calendar
end Placement
