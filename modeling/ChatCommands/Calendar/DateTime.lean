set_option autoImplicit false

/-!
# Dates and times

A civil date from year 1 to 9999 with a time of day in microseconds, and with how
far the time is ahead of the universal one, if that is known.
-/
namespace ChatCommands

structure DateTime where
  year : Nat
  month : Nat
  day : Nat
  hour : Nat := 0
  minute : Nat := 0
  second : Nat := 0
  microsecond : Nat := 0
  /-- in microseconds -/
  offset : Option Int := none
  deriving DecidableEq, Repr, Inhabited

namespace DateTime

def isLeap (year : Nat) : Bool := year % 4 == 0 && (year % 100 != 0 || year % 400 == 0)

def daysIn (year month : Nat) : Nat :=
  if month = 2 then if isLeap year then 29 else 28
  else if month = 4 ∨ month = 6 ∨ month = 9 ∨ month = 11 then 30
  else 31

def perSecond : Nat := 1000000
def perDay : Nat := 24 * 60 * 60 * perSecond

/-- The date is on the calendar and the time within the day, and so is the offset. -/
def Exists (d : DateTime) : Prop :=
  1 ≤ d.year ∧ d.year ≤ 9999 ∧ 1 ≤ d.month ∧ d.month ≤ 12 ∧
    1 ≤ d.day ∧ d.day ≤ daysIn d.year d.month ∧ d.hour < 24 ∧ d.minute < 60 ∧ d.second < 60 ∧
    d.microsecond < perSecond ∧ (d.offset.getD 0).natAbs < perDay

instance (d : DateTime) : Decidable d.Exists := by
  unfold Exists
  infer_instance

/-- A number with leading zeros up to the given width. -/
def padded (width n : Nat) : String :=
  let ds := Nat.toDigits 10 n
  String.ofList (List.replicate (width - ds.length) '0' ++ ds)

/-- A number of microseconds below a second, unless there are none. -/
def fractionText (microseconds : Nat) : String :=
  if microseconds = 0 then "" else "." ++ padded 6 microseconds

/-- An offset with its sign, in hours and minutes and what is left of them. -/
def offsetText (offset : Int) : String :=
  let n := offset.natAbs
  let seconds := n / perSecond % 60
  (if offset < 0 then "-" else "+") ++ padded 2 (n / perSecond / 3600) ++ ":" ++
    padded 2 (n / perSecond / 60 % 60) ++
    if n % (60 * perSecond) = 0 then ""
    else ":" ++ padded 2 seconds ++ fractionText (n % perSecond)

/-- The date and the time of day, with the given text between them. -/
def text (between : String) (d : DateTime) : String :=
  padded 4 d.year ++ "-" ++ padded 2 d.month ++ "-" ++ padded 2 d.day ++ between ++
    padded 2 d.hour ++ ":" ++ padded 2 d.minute ++ ":" ++ padded 2 d.second ++
    fractionText d.microsecond ++ d.offset.elim "" offsetText

end DateTime
end ChatCommands
