import ChatCommands.Calendar.DateParts
import ChatCommands.Text.Digit
import ChatCommands.Text.Letter

set_option autoImplicit false

/-!
# Date fields

A field of a date pattern stands for one part of a date. It is written with
digits in one of several shapes, as a name in any case, as a fraction of a second
or as an offset from universal time. The ways to read a field are tried in a
fixed order: two digits before one, and so on. Some texts fit a field and have no
meaning.
-/
namespace ChatCommands

inductive DateField where
  | year
  | yearOfCentury
  | month
  | monthName
  | monthAbbreviation
  | day
  | dayOfYear
  | hour
  | hourOfHalf
  | half
  | minute
  | second
  | fraction
  | offset
  | zone
  | weekdayName
  | weekdayAbbreviation
  | weekdayFromSunday
  | weekdayFromMonday
  | weekFromSunday
  | weekFromMonday
  | isoYear
  | isoWeek
  deriving DecidableEq, Repr

/-- What a text says that fits a field. -/
inductive FieldReading where
  | number (n : Nat)
  /-- in microseconds -/
  | offset (n : Int)
  | senseless
  deriving DecidableEq, Repr

namespace DateField
open Text

def letter : DateField → Char
  | .year => 'Y'
  | .yearOfCentury => 'y'
  | .month => 'm'
  | .monthName => 'B'
  | .monthAbbreviation => 'b'
  | .day => 'd'
  | .dayOfYear => 'j'
  | .hour => 'H'
  | .hourOfHalf => 'I'
  | .half => 'p'
  | .minute => 'M'
  | .second => 'S'
  | .fraction => 'f'
  | .offset => 'z'
  | .zone => 'Z'
  | .weekdayName => 'A'
  | .weekdayAbbreviation => 'a'
  | .weekdayFromSunday => 'w'
  | .weekdayFromMonday => 'u'
  | .weekFromSunday => 'U'
  | .weekFromMonday => 'W'
  | .isoYear => 'G'
  | .isoWeek => 'V'

def all : List DateField :=
  [.year, .yearOfCentury, .month, .monthName, .monthAbbreviation, .day, .dayOfYear, .hour,
   .hourOfHalf, .half, .minute, .second, .fraction, .offset, .zone, .weekdayName,
   .weekdayAbbreviation, .weekdayFromSunday, .weekdayFromMonday, .weekFromSunday, .weekFromMonday,
   .isoYear, .isoWeek]

/-- A digit of any script, or an ASCII digit between two given ones. -/
inductive Shape where
  | anyDigit
  | range (lo hi : Char)
  | space

def Shape.fits : Shape → Char → Bool
  | .anyDigit, c => isDigit c
  | .range lo hi, c => lo ≤ c && c ≤ hi
  | .space, c => c == ' '

def Shape.expression : Shape → String
  | .anyDigit => "\\d"
  | .range lo hi => if lo = hi then String.singleton lo else String.ofList ['[', lo, '-', hi, ']']
  | .space => " "

/-- How a field is written. -/
inductive Form where
  /-- the shapes that are tried one after the other -/
  | digits (shapes : List (List Shape))
  /-- the names that are tried one after the other, with what they mean -/
  | names (names : List (String × Nat))
  | fraction
  | offset

def weekForm : Form :=
  .digits [[.range '5' '5', .range '0' '3'], [.range '0' '4', .anyDigit], [.anyDigit]]

def yearForm : Form := .digits [[.anyDigit, .anyDigit, .anyDigit, .anyDigit]]

def form : DateField → Form
  | .year | .isoYear => yearForm
  | .yearOfCentury => .digits [[.anyDigit, .anyDigit]]
  | .month => .digits [[.range '1' '1', .range '0' '2'], [.range '0' '0', .range '1' '9'],
      [.range '1' '9']]
  | .monthName => .names [("september", 9), ("february", 2), ("november", 11), ("december", 12),
      ("january", 1), ("october", 10), ("august", 8), ("march", 3), ("april", 4), ("june", 6),
      ("july", 7), ("may", 5)]
  | .monthAbbreviation => .names [("jan", 1), ("feb", 2), ("mar", 3), ("apr", 4), ("may", 5),
      ("jun", 6), ("jul", 7), ("aug", 8), ("sep", 9), ("oct", 10), ("nov", 11), ("dec", 12)]
  | .day => .digits [[.range '3' '3', .range '0' '1'], [.range '1' '2', .anyDigit],
      [.range '0' '0', .range '1' '9'], [.range '1' '9'], [.space, .range '1' '9']]
  | .dayOfYear => .digits [[.range '3' '3', .range '6' '6', .range '0' '6'],
      [.range '3' '3', .range '0' '5', .anyDigit], [.range '1' '2', .anyDigit, .anyDigit],
      [.range '0' '0', .range '1' '9', .anyDigit], [.range '0' '0', .range '0' '0', .range '1' '9'],
      [.range '1' '9', .anyDigit], [.range '0' '0', .range '1' '9'], [.range '1' '9']]
  | .hour => .digits [[.range '2' '2', .range '0' '3'], [.range '0' '1', .anyDigit], [.anyDigit]]
  | .hourOfHalf => .digits [[.range '1' '1', .range '0' '2'], [.range '0' '0', .range '1' '9'],
      [.range '1' '9']]
  | .half => .names [("am", 0), ("pm", 1)]
  | .minute => .digits [[.range '0' '5', .anyDigit], [.anyDigit]]
  | .second => .digits [[.range '6' '6', .range '0' '1'], [.range '0' '5', .anyDigit], [.anyDigit]]
  | .fraction => .fraction
  | .offset => .offset
  | .zone => .names [("utc", 0), ("gmt", 0)]
  | .weekdayName => .names [("wednesday", 2), ("thursday", 3), ("saturday", 5), ("tuesday", 1),
      ("monday", 0), ("friday", 4), ("sunday", 6)]
  | .weekdayAbbreviation => .names [("mon", 0), ("tue", 1), ("wed", 2), ("thu", 3), ("fri", 4),
      ("sat", 5), ("sun", 6)]
  | .weekdayFromSunday => .digits [[.range '0' '6']]
  | .weekdayFromMonday => .digits [[.range '1' '7']]
  | .weekFromSunday | .weekFromMonday => weekForm
  | .isoWeek => .digits [[.range '5' '5', .range '0' '3'], [.range '0' '0', .range '1' '9'],
      [.range '1' '4', .anyDigit], [.anyDigit]]

/-- The value read and what follows it, if the text begins with characters of these shapes. -/
def readShapes (value : Nat) : List Shape → List Char → Option (Nat × List Char)
  | [], cs => some (value, cs)
  | _ :: _, [] => none
  | s :: ss, c :: cs => if s.fits c then readShapes (10 * value + digitValue c) ss cs else none

/-- What a name means that is written with the given letters. Of the forms of a letter only those of
the name itself mean anything. -/
def readName (written : List Char) (value : Nat) : FieldReading :=
  if written.all (·.toNat < 0x80) then .number value else .senseless

def scanName? (name : String) (value : Nat) (cs : List Char) : Option (FieldReading × List Char) :=
  let written := cs.take name.length
  if written.length = name.length ∧ (name.toList.zip written).all fun p => sameLetter p.1 p.2 then
    some (readName written value, cs.drop name.length)
  else none

/-- How many digits a fraction of a second has at most. -/
def fractionDigits : Nat := 6

/-- The microseconds that a fraction of so many digits stands for. -/
def microseconds (digits value : Nat) : Nat := value * Nat.pow 10 (fractionDigits - digits)

/-- A fraction of a second, the most digits first. -/
def scanFractions (digit : Shape) (cs : List Char) : List (Nat × List Char) :=
  [6, 5, 4, 3, 2, 1].filterMap fun n =>
    (readShapes 0 (List.replicate n digit) cs).map fun r => (microseconds n r.1, r.2)

def dropColon : List Char → Bool × List Char
  | ':' :: cs => (true, cs)
  | cs => (false, cs)

/-- What may follow the seconds of an offset: a fraction of them, or nothing. -/
def afterSeconds : List Char → List (Nat × List Char)
  | '.' :: cs => scanFractions .anyDigit cs ++ [(0, '.' :: cs)]
  | cs => [(0, cs)]

/-- An offset without its sign: hours, minutes and, if they are there, seconds. Colons stand before
the minutes and the seconds or before none. -/
def scanOffset (sign : Int) (cs : List Char) : List (FieldReading × List Char) :=
  match readShapes 0 [.anyDigit, .anyDigit] cs with
  | none => []
  | some (hours, cs) =>
    let (colon, cs) := dropColon cs
    match readShapes 0 [.range '0' '5', .anyDigit] cs with
    | none => []
    | some (minutes, cs) =>
      let value := fun (seconds fraction : Nat) => FieldReading.offset
        (sign * (((hours * 60 + minutes) * 60 + seconds) * DateTime.perSecond + fraction : Nat))
      let (again, rest) := dropColon cs
      let longer := match readShapes 0 [.range '0' '5', .anyDigit] rest with
        | none => []
        | some (seconds, rest) => (afterSeconds rest).map fun r =>
          (if again = colon then value seconds r.1 else .senseless, r.2)
      longer ++ [(value 0 0, cs)]

/-- An offset: its sign and what follows it, or the letter for universal time. -/
def scanOffsets : List Char → List (FieldReading × List Char)
  | '+' :: cs => scanOffset 1 cs
  | '-' :: cs => scanOffset (-1) cs
  | 'Z' :: cs => [(.offset 0, cs)]
  | _ => []

/-- The ways to read a form at the front of a text, each with what follows. -/
def Form.readings (cs : List Char) : Form → List (FieldReading × List Char)
  | .digits shapes =>
    shapes.filterMap fun ss => (readShapes 0 ss cs).map fun r => (.number r.1, r.2)
  | .names ns => ns.filterMap fun n => scanName? n.1 n.2 cs
  | .fraction => (scanFractions (.range '0' '9') cs).map fun r => (.number r.1, r.2)
  | .offset => scanOffsets cs

def readings (f : DateField) (cs : List Char) : List (FieldReading × List Char) :=
  f.form.readings cs

def Form.expression : Form → String
  | .digits shapes => "|".intercalate (shapes.map fun ss => String.join (ss.map Shape.expression))
  | .names ns => "|".intercalate (ns.map (·.1))
  | .fraction => "[0-9]\x7b1,6\x7d"
  | .offset => "[+-]\\d\\d:?[0-5]\\d(:?[0-5]\\d(\\.\\d\x7b1,6\x7d)?)?|(?-i:Z)"

/-- The regular expression of a field, which is a group with the field's letter for its name. -/
def expression (f : DateField) : String :=
  "(?P<" ++ String.singleton f.letter ++ ">" ++ f.form.expression ++ ")"

/-- How many groups the regular expression of a field has. -/
def groups : DateField → Nat
  | .offset => 3
  | _ => 1

def yearOfTwoDigits (n : Nat) : Nat := if n ≤ 68 then 2000 + n else 1900 + n

def assignNumber (d : DateParts) (n : Nat) : DateField → DateParts
  | .year => { d with year := some n }
  | .yearOfCentury => { d with year := some (yearOfTwoDigits n) }
  | .month | .monthName | .monthAbbreviation => { d with month := n }
  | .day => { d with day := n }
  | .dayOfYear => { d with dayOfYear := some n }
  | .hour => { d with hour := n, halves := false }
  | .hourOfHalf => { d with hour := n, halves := true }
  | .half => { d with afternoon := n != 0 }
  | .minute => { d with minute := n }
  | .second => { d with second := n }
  | .fraction => { d with microsecond := n }
  | .weekdayName | .weekdayAbbreviation => { d with weekday := some n }
  | .weekdayFromSunday => { d with weekday := some ((n + 6) % 7) }
  | .weekdayFromMonday => { d with weekday := some (n - 1) }
  | .weekFromSunday => { d with week := some n, fromMonday := false }
  | .weekFromMonday => { d with week := some n, fromMonday := true }
  | .isoYear => { d with isoYear := some n }
  | .isoWeek => { d with isoWeek := some n }
  | .offset | .zone => d

def assign (d : DateParts) (f : DateField) : FieldReading → DateParts
  | .number n => assignNumber d n f
  | .offset n => { d with offset := some n }
  | .senseless => { d with sound := false }

end DateField
end ChatCommands
