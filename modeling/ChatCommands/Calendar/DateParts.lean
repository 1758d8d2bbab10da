import ChatCommands.Calendar.DayCount

set_option autoImplicit false

/-!
# Parts of a date

What a text says about a date and a time, part by part. Together the parts give a
date, where a day of the year or a weekday in a week decides over month and day.
-/
namespace ChatCommands

structure DateParts where
  year : Option Nat := none
  month : Nat := 1
  day : Nat := 1
  dayOfYear : Option Nat := none
  /-- Monday is zero -/
  weekday : Option Nat := none
  week : Option Nat := none
  /-- weeks begin on Mondays -/
  fromMonday : Bool := true
  /-- the year to which a week belongs as a whole -/
  isoYear : Option Nat := none
  isoWeek : Option Nat := none
  hour : Nat := 0
  /-- hours are counted to twelve -/
  halves : Bool := false
  afternoon : Bool := false
  minute : Nat := 0
  second : Nat := 0
  microsecond : Nat := 0
  /-- in microseconds -/
  offset : Option Int := none
  /-- every part has a meaning -/
  sound : Bool := true
  deriving DecidableEq, Repr, Inhabited

namespace DateParts

/-- Without another year, the year to which weeks belong as a whole comes with such a week and a
weekday, and without the day of the year. With another year, or without any, such a week comes
beside a week of that year, which decides. -/
def weekFits (p : DateParts) : Bool :=
  match p.year, p.isoYear with
  | none, some _ => p.isoWeek.isSome && p.weekday.isSome && p.dayOfYear.isNone
  | _, _ => p.week.isSome || p.isoWeek.isNone

def hourOfDay (p : DateParts) : Nat :=
  if p.halves then (if p.hour = 12 then 0 else p.hour) + (if p.afternoon then 12 else 0) else p.hour

def isLeapDay (p : DateParts) : Bool := p.year.isNone && p.month == 2 && p.day == 29

/-- The year without which a date is. -/
def usualYear : Nat := 1900

/-- The year in which days are counted. -/
def countingYear (p : DateParts) : Nat := p.year.getD (if p.isLeapDay then 1904 else usualYear)

/-- A year and the day counted in it, if the day is given otherwise than by month and day. -/
def counted? (p : DateParts) : Option (Nat × Int) :=
  match p.dayOfYear, p.weekday with
  | some n, _ => some (p.countingYear, n)
  | none, none => none
  | none, some weekday =>
    match p.week, p.isoYear, p.isoWeek with
    | some week, _, _ =>
      some (p.countingYear, DayCount.ofWeek p.countingYear week weekday p.fromMonday)
    | none, some year, some week => some (year, DayCount.ofIsoWeek year week weekday)
    | _, _, _ => none

def date? (p : DateParts) : Option DateTime :=
  match p.counted? with
  | none => some { year := p.countingYear, month := p.month, day := p.day }
  | some (year, n) => DayCount.dateIn? year n

/-- The date and time that the parts give, if it exists. -/
def dateTime? (p : DateParts) : Option DateTime :=
  if p.sound && p.weekFits then
    p.date?.bind fun d =>
      let d := { d with
        year := if p.isLeapDay then usualYear else d.year, hour := p.hourOfDay, minute := p.minute,
        second := p.second, microsecond := p.microsecond, offset := p.offset }
      if d.Exists then some d else none
  else none

end DateParts
end ChatCommands
