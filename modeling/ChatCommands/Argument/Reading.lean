import ChatCommands.Calendar.Pattern
import ChatCommands.Fault
import ChatCommands.Number.Decimal
import ChatCommands.Value.Basic

set_option autoImplicit false

/-!
# Reading argument tokens

How a single token is read as an integer, a number, a date or the mention of a
member. One line feed at the end of an integer or a mention is overlooked.
-/
namespace ChatCommands.Argument
open Text

def chopLineFeed (cs : List Char) : List Char :=
  if cs.getLast? = some '\n' then cs.dropLast else cs

/-- Digits only, and at least one. -/
def isNumber (cs : List Char) : Bool := !cs.isEmpty && cs.all isDigit

/-- A sign and digits, as many as the limit allows. -/
def readInteger (token : String) : Except Fault Int :=
  let (negative, ds) := Decimal.readSign (chopLineFeed token.toList)
  if !isNumber ds then .error (.unreadable token .integer)
  else if ds.length > Fault.digitLimit then .error (.tooManyDigits ds.length)
  else .ok (if negative then -(digitsValue ds : Int) else digitsValue ds)

/-- A decimal numeral within the range of binary64. -/
def readNumber (token : String) : Except Fault Binary64 :=
  match (Decimal.read? token).bind fun d => d.toBinary64.finite? with
  | some x => .ok (.finite x)
  | none => .error (.unreadable token .number)

/-- The date that the first fitting pattern gives, of those before one that is not sound. -/
def readDate (patterns : List DatePattern) (token : String) : Except Fault DateTime :=
  let (sound, others) := patterns.span (·.repetition?.isNone)
  match DatePattern.readFirst? sound token, others.head?.bind (·.repetition?) with
  | some d, _ => .ok d
  | none, some r => .error (.repeatedGroup r.field.letter r.place r.earlier r.position)
  | none, none => .error (.unreadable token .date)

/-- The digits of a mention: between `<@` or `<@!` and `>`. -/
def mentionDigits? (cs : List Char) : Option (List Char) :=
  match chopLineFeed cs with
  | '<' :: '@' :: rest =>
    let body := match rest with
      | '!' :: rest => rest
      | rest => rest
    if body.getLast? = some '>' ∧ isNumber body.dropLast then some body.dropLast else none
  | _ => none

/-- The digits of the member's id, as they are written. -/
def readMention (token : String) : Except Fault String :=
  match mentionDigits? token.toList with
  | some ds => .ok (String.ofList ds)
  | none => .error (.unreadable token .mention)

end ChatCommands.Argument
