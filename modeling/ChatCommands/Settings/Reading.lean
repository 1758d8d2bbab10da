import ChatCommands.Assoc
import ChatCommands.Value.Basic

set_option autoImplicit false

/-!
# Reading settings

A setting is given as a value of any type and read as a text, an integer or a
flag. Integers may be given as whole numbers of any kind or written in decimal,
and flags as zero and one or by one of twelve words. Fractional kinds of numbers
count as whole only within 64 bits. What cannot be read is
reported with the setting's name; all settings are read before any is reported.
-/
namespace ChatCommands.Settings

/-- What is wrong with a setting. -/
inductive Complaint where
  | notText
  | notInteger
  | unreadInteger
  | oversizedInteger
  | notFinite
  | fractional
  | notFlag
  | unreadFlag
  | negative
  | unknownName
  deriving DecidableEq, Repr

namespace Complaint

def code : Complaint → String
  | .notText => "string_type"
  | .notInteger => "int_type"
  | .unreadInteger => "int_parsing"
  | .oversizedInteger => "int_parsing_size"
  | .notFinite => "finite_number"
  | .fractional => "int_from_float"
  | .notFlag => "bool_type"
  | .unreadFlag => "bool_parsing"
  | .negative => "greater_than_equal"
  | .unknownName => "extra_forbidden"

def message : Complaint → String
  | .notText => "Input should be a valid string"
  | .notInteger => "Input should be a valid integer"
  | .unreadInteger => "Input should be a valid integer, unable to parse string as an integer"
  | .oversizedInteger => "Unable to parse input string as an integer, exceeded maximum size"
  | .notFinite => "Input should be a finite number"
  | .fractional => "Input should be a valid integer, got a number with a fractional part"
  | .notFlag => "Input should be a valid boolean"
  | .unreadFlag => "Input should be a valid boolean, unable to interpret input"
  | .negative => "Input should be greater than or equal to 0"
  | .unknownName => "Extra inputs are not permitted"

end Complaint

structure Issue where
  setting : String
  complaint : Complaint
  deriving DecidableEq, Repr

def readText : Value → Except Complaint String
  | .text s => .ok s
  | _ => .error .notText

/-- Blanks that may surround a written integer. -/
def marginRanges : List (Nat × Nat) :=
  [(0x9, 0xD), (0x20, 0x20), (0x85, 0x85), (0xA0, 0xA0), (0x1680, 0x1680), (0x2000, 0x200A),
   (0x2028, 0x2029), (0x202F, 0x202F), (0x205F, 0x205F), (0x3000, 0x3000)]

def isMargin (c : Char) : Bool := marginRanges.any fun r => r.1 ≤ c.toNat && c.toNat ≤ r.2

def dropMargins (cs : List Char) : List Char :=
  ((cs.dropWhile isMargin).reverse.dropWhile isMargin).reverse

/-- A character that a number goes on with after its leading zeros. -/
def startsNumber (c : Char) : Bool := ('1' ≤ c && c ≤ '9') || c == '-'

/-- What follows leading zeros, among which underscores count, from the last of them on if it is a
point or nothing. -/
def afterZeros? (last : Char) : List Char → Option (List Char)
  | [] => some [last]
  | c :: cs =>
    if c = '0' ∨ c = '_' then afterZeros? c cs
    else if startsNumber c then some (c :: cs)
    else if c = '.' then some (last :: c :: cs)
    else none

/-- Without leading zeros, but for one that is needed. -/
def dropLeadingZeros? : List Char → Option (List Char)
  | [] => none
  | c :: cs => if c = '0' then afterZeros? c cs else if startsNumber c then some (c :: cs) else none

/-- Without a point that zeros and nothing else follow, and those. -/
def dropZeroFraction (cs : List Char) : List Char :=
  match cs.dropWhile (· ≠ '.') with
  | _ :: '0' :: zeros => if zeros.all (· == '0') then cs.takeWhile (· ≠ '.') else cs
  | _ => cs

/-- Without single underscores inside. Where others stand, all stay. -/
def dropUnderscores (cs : List Char) : List Char :=
  let doubled := (cs.zip (cs.drop 1)).any fun p => p.1 == '_' && p.2 == '_'
  if cs.head? = some '_' ∨ cs.getLast? = some '_' ∨ doubled then cs else cs.filter (· ≠ '_')

/-- Without what may stand among and after the digits. -/
def bareDigits? (cs : List Char) : Option (List Char) :=
  (dropLeadingZeros? cs).map fun cs => dropUnderscores (dropZeroFraction cs)

/-- Without all that may stand around and among digits, but with a minus sign, which may be given
after a plus sign only where zeros stand between them. -/
def bare? (cs : List Char) : Option (List Char) :=
  match dropMargins cs with
  | '+' :: '-' :: _ => none
  | '+' :: cs => bareDigits? cs
  | '-' :: cs => (bareDigits? cs).map ('-' :: ·)
  | cs => bareDigits? cs

def sizeLimit : Nat := 4300

def dropMinus : List Char → List Char
  | '-' :: cs => cs
  | cs => cs

/-- The text begins with too many digits, of which the first is no zero. -/
def isOversized (cs : List Char) : Bool :=
  let digits := (dropMinus cs).takeWhile Char.isDigit
  digits.head? ≠ some '0' && sizeLimit < digits.length

/-- The value of digits, none but a single zero starting with zero. -/
def readDigits? (ds : List Char) : Option Nat :=
  if ds = ['0'] ∨ (ds ≠ [] ∧ ds.head? ≠ some '0' ∧ ds.all Char.isDigit ∧ ds.length ≤ sizeLimit) then
    some (ds.foldl (fun n c => 10 * n + (c.toNat - '0'.toNat)) 0)
  else none

/-- The integer that a minus sign, if any, and digits stand for. -/
def readPlain? : List Char → Option Int
  | '-' :: ds => (readDigits? ds).map fun n => -(n : Int)
  | ds => (readDigits? ds).map Int.ofNat

/-- An integer as it may be written: blanks around it, a sign, leading zeros, digits that may be
grouped by underscores, and a fraction of zeros. Digits that are too many are told apart only where
nothing stands before them but a minus sign. -/
def readWritten (text : String) : Except Complaint Int :=
  if isOversized text.toList then .error .oversizedInteger
  else match (bare? text.toList).bind readPlain? with
    | some n => .ok n
    | none => .error .unreadInteger

/-- The bound of the numbers of 64 bits. -/
def wordBound : Int := 9223372036854775808

def readWhole (x : Binary64) : Except Complaint Int :=
  match x.finite? with
  | none => .error .notFinite
  | some x =>
    let q := x.toRat
    if q.den ≠ 1 then .error .fractional
    else if -wordBound < q.num ∧ q.num < wordBound then .ok q.num
    else .error .oversizedInteger

def readInteger : Value → Except Complaint Int
  | .int n => .ok n
  | .bool b => .ok (if b then 1 else 0)
  | .float x => readWhole x
  | .text s => readWritten s
  | _ => .error .notInteger

def readDuration (v : Value) : Except Complaint Nat :=
  match readInteger v with
  | .error e => .error e
  | .ok n => if n < 0 then .error .negative else .ok n.toNat

def readOptionalDuration : Value → Except Complaint (Option Nat)
  | .none => .ok none
  | v => (readDuration v).map some

def trueWords : List String := ["1", "on", "t", "true", "y", "yes"]

def falseWords : List String := ["0", "off", "f", "false", "n", "no"]

def flagOfInteger (n : Int) : Except Complaint Bool :=
  if n = 0 then .ok false else if n = 1 then .ok true else .error .unreadFlag

def readFlag : Value → Except Complaint Bool
  | .bool b => .ok b
  | .int n => if -wordBound ≤ n ∧ n < wordBound then flagOfInteger n else .error .notFlag
  | .float x =>
    match readWhole x with
    | .ok n => flagOfInteger n
    | .error _ => .error .notFlag
  | .text s =>
    let word := String.ofList (s.toList.map Char.toLower)
    if trueWords.contains word then .ok true
    else if falseWords.contains word then .ok false
    else .error .unreadFlag
  | _ => .error .notFlag

/-- A setting that was read, or its default with what was wrong. -/
structure Field (α : Type) where
  value : α
  issues : List Issue

def field {α : Type} (given : Assoc Value) (name : String) (default : α)
    (read : Value → Except Complaint α) : Field α :=
  match given.find? name with
  | none => ⟨default, []⟩
  | some v =>
    match read v with
    | .ok a => ⟨a, []⟩
    | .error c => ⟨default, [⟨name, c⟩]⟩

end ChatCommands.Settings
