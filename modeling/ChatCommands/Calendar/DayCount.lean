import ChatCommands.Calendar.DateTime

set_option autoImplicit false

/-!
# Counting days

Days are counted from the first day of year 1, which is day 1 and a Monday. A day
may also be given by its place in a year, or by a week and a day of the week; such
a count may reach into the year before or after.
-/
namespace ChatCommands.DayCount
open DateTime

def daysInYear (year : Nat) : Nat := if isLeap year then 366 else 365

def beforeYear (year : Nat) : Nat :=
  let y := year - 1
  365 * y + y / 4 - y / 100 + y / 400

/-- The weekday on which a year begins, Monday being zero. -/
def firstWeekday (year : Nat) : Nat := beforeYear year % 7

/-- The last day of year 9999. -/
def last : Nat := 3652059

/-- The year of a day and the days of that year before it. -/
def yearOf (day : Nat) : Nat × Nat :=
  let n := day - 1
  let (q, n) := (n / 146097, n % 146097)
  let (c, n) := (min (n / 36524) 3, n - min (n / 36524) 3 * 36524)
  let (b, n) := (n / 1461, n % 1461)
  let a := min (n / 365) 3
  (400 * q + 100 * c + 4 * b + a + 1, n - 365 * a)

/-- The month and the day in it that follow so many days of the year, from a month on; `fuel` is at
least the number of months that are left. -/
def monthOf (year : Nat) : Nat → Nat → Nat → Nat × Nat
  | 0, month, n => (month, n + 1)
  | fuel + 1, month, n =>
    if n < daysIn year month then (month, n + 1)
    else monthOf year fuel (month + 1) (n - daysIn year month)

def date (day : Nat) : DateTime :=
  let (year, n) := yearOf day
  let (month, day) := monthOf year 12 1 n
  { year, month, day }

/-- The date of a day that is counted from the beginning of a year, or from the end of the year
before if the count is not positive. -/
def dateIn? (year : Nat) (day : Int) : Option DateTime :=
  let (year, day) := if 0 < day then (year, day) else (year - 1, day + daysInYear (year - 1))
  let n := beforeYear year + day.toNat
  if year = 0 ∨ day ≤ 0 ∨ last < n then none else some (date n)

/-- The day of a year given by a week and a weekday. Weeks begin on Mondays or on Sundays, and those
before the first such day are in week zero. -/
def ofWeek (year week weekday : Nat) (fromMonday : Bool) : Int :=
  let shift := if fromMonday then 0 else 1
  let first := (firstWeekday year + shift) % 7
  let weekday := (weekday + shift) % 7
  if week = 0 then 1 + weekday - first
  else 1 + (7 - first) % 7 + 7 * (week - 1 : Nat) + weekday

/-- The day of a year given by a week that begins on Monday and a weekday. The first week is the one
with the fourth day of the year. -/
def ofIsoWeek (year week weekday : Nat) : Int :=
  let fourth := (firstWeekday year + 3) % 7
  7 * week + (weekday + 1) - (fourth + 4)

end ChatCommands.DayCount
