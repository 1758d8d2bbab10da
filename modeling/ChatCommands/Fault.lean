import ChatCommands.Text.Clipped
import ChatCommands.Text.Quoted

set_option autoImplicit false

/-!
# Faults

A fault interrupts the code in which it arises until a handler stops it. Host
code raises faults of kinds of its own; the others arise when an argument cannot
be read or when a value is used as something that it is not. Handlers stop every
ordinary fault and let a fatal one pass.
-/
namespace ChatCommands
open Text

/-- What handlers make of a fault that host code raises. -/
inductive Severity where
  /-- every handler stops it -/
  | ordinary
  /-- ordinary, and the way for a parser to refuse a token -/
  | refusal
  /-- ordinary, and the way for a directory to say that it has no such entry -/
  | noEntry
  /-- no handler stops it -/
  | fatal
  deriving DecidableEq, Repr

/-- A kind of fault of the host, with the label it is shown under. Some kinds show their message
quoted. -/
structure FaultKind where
  label : String
  severity : Severity := .ordinary
  quotesMessage : Bool := false
  deriving DecidableEq, Repr

/-- What a token was to be read as. -/
inductive Wanted where
  | integer
  | number
  | date
  | mention
  deriving DecidableEq, Repr

def Wanted.phrase : Wanted → String
  | .integer => "an integer"
  | .number => "a number"
  | .date => "a date"
  | .mention => "a member mention"

inductive Fault where
  | raised (kind : FaultKind) (message : Option String)
  | unreadable (token : String) (wanted : Wanted)
  | noResolver
  | unknownMember (id : String)
  | tooManyDigits (count : Nat)
  /-- an integer has too many digits to be written -/
  | tooLong
  | unknownTag (tag : String)
  /-- a group of a regular expression has the name of an earlier one -/
  | repeatedGroup (name : Char) (group earlier position : Nat)
  | notCallable (type : String)
  | noAttribute (type member : String)
  | notSubscriptable (type : String)
  | notIterable (type : String)
  /-- a value of this type cannot be a key -/
  | noKey (type : String)
  /-- what was called takes this argument in another way already -/
  | givenTwice (called argument : String)
  | noFirst
  | noDifference (type : String)
  | tooLarge
  | cancelled
  deriving DecidableEq, Repr

namespace Fault

/-- What cannot be made of values of these types. -/
def ofType (message : String) : Fault := .raised { label := "TypeError" } (some message)

/-- What cannot be made of values with this content. -/
def ofContent (message : String) : Fault := .raised { label := "ValueError" } (some message)

/-- An attribute that is not there or cannot be set. -/
def ofAttribute (message : String) : Fault := .raised { label := "AttributeError" } (some message)

/-- How many digits an integer may have where it is read or written. -/
def digitLimit : Nat := 4300

def severity : Fault → Severity
  | .raised kind _ => kind.severity
  | .unreadable .. | .noResolver | .unknownMember _ => .refusal
  | .cancelled => .fatal
  | _ => .ordinary

def isOrdinary (f : Fault) : Bool := f.severity != .fatal

def isRefusal (f : Fault) : Bool := f.severity == .refusal

def label : Fault → String
  | .raised kind _ => kind.label
  | .unreadable .. | .noResolver | .unknownMember _ => "ArgumentConversionError"
  | .tooManyDigits _ | .tooLong => "ValueError"
  | .unknownTag _ | .noFirst => "KeyError"
  | .noAttribute .. => "AttributeError"
  | .repeatedGroup .. => "error"
  | .tooLarge => "OverflowError"
  | .cancelled => "CancelledError"
  | .notCallable _ | .notSubscriptable _ | .notIterable _ | .noDifference _ | .noKey _
  | .givenTwice .. => "TypeError"

def message : Fault → String
  | .raised kind m => m.elim "" fun m => if kind.quotesMessage then quoted m else m
  | .unreadable token wanted => quoted token ++ " is not " ++ wanted.phrase
  | .noResolver => "No member resolver configured"
  | .unknownMember id => "Member " ++ id ++ " not found"
  | .tooManyDigits n =>
    "Exceeds the limit (" ++ toString digitLimit ++ " digits) for integer string conversion: value has " ++
      toString n ++ " digits; use sys.set_int_max_str_digits() to increase the limit"
  | .tooLong =>
    "Exceeds the limit (" ++ toString digitLimit ++ " digits) for integer string conversion; " ++
      "use sys.set_int_max_str_digits() to increase the limit"
  | .unknownTag tag => quoted tag
  | .repeatedGroup name group earlier position =>
    "redefinition of group name '" ++ String.singleton name ++ "' as group " ++ toString group ++
      "; was group " ++ toString earlier ++ " at position " ++ toString position
  | .notCallable t => "'" ++ t ++ "' object is not callable"
  | .noAttribute t a => "'" ++ clipped 50 t ++ "' object has no attribute '" ++ a ++ "'"
  | .notSubscriptable t => "'" ++ t ++ "' object is not subscriptable"
  | .notIterable t => "'" ++ t ++ "' object is not iterable"
  | .noKey t => "unhashable type: '" ++ t ++ "'"
  | .givenTwice called a => called ++ "() got multiple values for argument '" ++ a ++ "'"
  | .noFirst => "0"
  | .noDifference t => "unsupported operand type(s) for -: 'float' and '" ++ t ++ "'"
  | .tooLarge => "int too large to convert to float"
  | .cancelled => ""

/-- The label with what the fault was made from in brackets. -/
def literal (f : Fault) : String :=
  let made := match f with
    | .raised _ none | .cancelled => ""
    | .raised _ (some m) => quoted m
    | .unknownTag _ | .noFirst => f.message
    | _ => quoted f.message
  f.label ++ "(" ++ made ++ ")"

end Fault
end ChatCommands
