import ChatCommands.Calendar.DateField
import ChatCommands.Text.Blank

set_option autoImplicit false

/-!
# Date patterns

A date pattern is a sequence of literal characters, blanks and fields. It is read
from left to right, going back to the next way of reading an earlier field
whenever a later piece does not fit. The first way in which all pieces fit
decides: it has to use up the text and give a date that exists. A pattern may
have each field only once; where one comes again is counted in the regular
expression that is written for the pattern.
-/
namespace ChatCommands

inductive DatePiece where
  | literal (c : Char)
  | blanks
  | field (f : DateField)
  deriving DecidableEq, Repr

abbrev DatePattern := List DatePiece

namespace DatePattern
open Text

/-- What follows one or more blanks, the most blanks first. -/
def afterBlanks : List Char → List (List Char)
  | [] => []
  | c :: cs => if isBlank c then afterBlanks cs ++ [cs] else []

/-- The first way to read the pattern at the front of the text: the parts set in `d`, and what
follows. -/
def scan? (d : DateParts) : DatePattern → List Char → Option (DateParts × List Char)
  | [], cs => some (d, cs)
  | .literal _ :: _, [] => none
  | .literal a :: ps, c :: cs => if sameLetter a c then scan? d ps cs else none
  | .blanks :: ps, cs => (afterBlanks cs).findSome? fun rest => scan? d ps rest
  | .field f :: ps, cs => (f.readings cs).findSome? fun r => scan? (f.assign d r.1) ps r.2

/-- The characters that are escaped in a regular expression. -/
def specials : List Char := ".^$*+?()\x7b\x7d[]|\\".toList

def width : DatePiece → Nat
  | .literal c => if specials.contains c then 2 else 1
  | .blanks => 3
  | .field f => f.expression.length

/-- A field that comes again: the number of its group, that of the group with the same name before,
and where its name stands. -/
structure Repetition where
  field : DateField
  place : Nat
  earlier : Nat
  position : Nat

/-- The first field that comes again after those seen, each with the number of its group. -/
def repetitionAfter? (seen : List (DateField × Nat)) (place position : Nat) :
    DatePattern → Option Repetition
  | [] => none
  | .field f :: ps =>
    match seen.lookup f with
    | some earlier => some ⟨f, place, earlier, position + "(?P<".length⟩
    | none =>
      repetitionAfter? ((f, place) :: seen) (place + f.groups) (position + width (.field f)) ps
  | p :: ps => repetitionAfter? seen place (position + width p) ps

def repetition? (p : DatePattern) : Option Repetition := repetitionAfter? [] 1 0 p

def read? (p : DatePattern) (text : String) : Option DateTime :=
  match scan? {} p text.toList with
  | some (d, []) => d.dateTime?
  | _ => none

/-- The hour, the minute and the second between colons. -/
def timeOfDay : DatePattern :=
  [.field .hour, .literal ':', .field .minute, .literal ':', .field .second]

/-- Month, day and year of the century between slashes. -/
def shortDate : DatePattern :=
  [.field .month, .literal '/', .field .day, .literal '/', .field .yearOfCentury]

def fullDate : DatePattern :=
  [.field .weekdayAbbreviation, .blanks, .field .monthAbbreviation, .blanks, .field .day,
    .blanks] ++ timeOfDay ++ [.blanks, .field .year]

/-- What a letter after a percent sign stands for: a field, or several pieces. -/
def piecesOf? (c : Char) : Option DatePattern :=
  match c with
  | '%' => some [.literal '%']
  | 'c' => some fullDate
  | 'x' => some shortDate
  | 'X' => some timeOfDay
  | c => (DateField.all.find? fun f => f.letter = c).map fun f => [.field f]

/-- A percent sign and a letter stand for pieces, a run of blanks for blanks, and every other
character for itself. A percent sign before anything else makes no pattern. -/
def ofChars? : List Char → Option DatePattern
  | [] => some []
  | ['%'] => none
  | '%' :: c :: cs =>
    match piecesOf? c with
    | some ps => (ofChars? cs).map (ps ++ ·)
    | none => none
  | c :: cs =>
    if isBlank c then
      (ofChars? cs).map fun ps => if ps.head? = some .blanks then ps else .blanks :: ps
    else (ofChars? cs).map (.literal c :: ·)

def ofString? (format : String) : Option DatePattern := ofChars? format.toList

/-- Year, month and day in this order, between dashes. -/
def dashed : DatePattern :=
  [.field .year, .literal '-', .field .month, .literal '-', .field .day]

def dashedMinutes : DatePattern :=
  dashed ++ [.literal 'T', .field .hour, .literal ':', .field .minute]

def dashedSeconds : DatePattern := dashedMinutes ++ [.literal ':', .field .second]

/-- Month, day and year in this order, between slashes. -/
def slashed : DatePattern :=
  [.field .month, .literal '/', .field .day, .literal '/', .field .year]

/-- Day, month and year in this order, between points. -/
def dotted : DatePattern :=
  [.field .day, .literal '.', .field .month, .literal '.', .field .year]

/-- The patterns that are tried by default, in this order. -/
def standard : List DatePattern := [dashed, dashedMinutes, dashedSeconds, slashed, dotted]

def readFirst? (ps : List DatePattern) (text : String) : Option DateTime :=
  ps.findSome? fun p => read? p text

end DatePattern
end ChatCommands
