import ChatCommands.Text.Blank
import ChatCommands.Text.Digit
import ChatCommands.Number.Binary64

set_option autoImplicit false

/-!
# Decimal numerals

A decimal numeral is an optional sign, digits with an optional point among or
around them (at least one digit in all) and an optional power of ten. Its digits
may be from any script. `Decimal.read?` gives the exact number that a text
denotes, and `Decimal.toBinary64` the nearest binary64 number.
-/
namespace ChatCommands

/-- The number `digits * 10 ^ exponent`, negated if `negative`. -/
structure Decimal where
  negative : Bool
  digits : Nat
  exponent : Int
  deriving DecidableEq, Repr

namespace Decimal
open Text

/-- The digits at the front of a text, and what follows them. -/
def spanDigits (cs : List Char) : List Char × List Char := (cs.takeWhile isDigit, cs.dropWhile isDigit)

/-- An optional sign: whether it is a minus, and what follows it. -/
def readSign : List Char → Bool × List Char
  | '-' :: cs => (true, cs)
  | '+' :: cs => (false, cs)
  | cs => (false, cs)

def readSigned? (cs : List Char) : Option Int :=
  let (negative, ds) := readSign cs
  if ds ≠ [] ∧ ds.all isDigit then
    some (if negative then -(digitsValue ds : Int) else digitsValue ds)
  else none

/-- An optional power of ten, to the end of the text. -/
def readExponent? : List Char → Option Int
  | [] => some 0
  | c :: cs => if c = 'e' ∨ c = 'E' then readSigned? cs else none

/-- Digits with an optional point: the digits before it, those after it, and what follows. -/
def spanMantissa (cs : List Char) : List Char × List Char × List Char :=
  match spanDigits cs with
  | (whole, '.' :: rest) => (whole, spanDigits rest)
  | (whole, rest) => (whole, [], rest)

def readChars? (cs : List Char) : Option Decimal :=
  let (negative, body) := readSign cs
  let (whole, fraction, rest) := spanMantissa body
  if whole = [] ∧ fraction = [] then none
  else (readExponent? rest).map fun e =>
    ⟨negative, digitsValue (whole ++ fraction), e - fraction.length⟩

/-- The blanks that may surround a numeral: those of ASCII except the separators, and all others. -/
def isMargin (c : Char) : Bool :=
  c == ' ' || (0x9 ≤ c.toNat && c.toNat ≤ 0xD) || (0x7F < c.toNat && isBlank c)

/-- The number that a text denotes, blanks around it aside. -/
def read? (text : String) : Option Decimal :=
  readChars? ((text.toList.dropWhile isMargin).reverse.dropWhile isMargin).reverse

/-- The value of digits with single underscores between them, and how many digits there are. -/
def readGrouped? (value count : Nat) : List Char → Option (Nat × Nat)
  | [] => none
  | [c] => (digitValue? c).map fun d => (10 * value + d, count + 1)
  | c :: '_' :: cs => (digitValue? c).bind fun d => readGrouped? (10 * value + d) (count + 1) cs
  | c :: cs => (digitValue? c).bind fun d => readGrouped? (10 * value + d) (count + 1) cs

/-- An integer as it may be written in full: blanks around it, a sign, and at most `limit` digits
that may be grouped by underscores. -/
def readInteger? (limit : Nat) (text : String) : Option Int :=
  let cs := ((text.toList.dropWhile isMargin).reverse.dropWhile isMargin).reverse
  let (negative, ds) := readSign cs
  match readGrouped? 0 0 ds with
  | some (n, count) =>
    if count > limit then none else some (if negative then -(n : Int) else n)
  | none => none

/-- How many decimal digits a number has; zero has none. -/
def size (n : Nat) : Nat := if n = 0 then 0 else (Nat.toDigits 10 n).length

/-- The nearest binary64 number. Far outside the range the powers of ten are not formed. -/
def toBinary64 (d : Decimal) : Binary64 :=
  let top : Int := size d.digits + d.exponent
  if d.digits = 0 ∨ top < -330 then Binary64.zero d.negative
  else if top > 310 then .infinite d.negative
  else Binary64.ofRatio d.negative (d.digits * Nat.pow 10 d.exponent.toNat)
      (Nat.pow 10 (-d.exponent).toNat)

end Decimal
end ChatCommands
