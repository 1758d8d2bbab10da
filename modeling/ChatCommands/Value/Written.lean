import ChatCommands.Number.Written
import ChatCommands.Value.Basic

set_option autoImplicit false

/-!
# How values are written

`Value.literal` writes a value so that its type can be seen: texts are quoted,
lists stand in square brackets and dictionaries in braces. `Value.shown` is the
same for all but texts, faults and dates, which it shows plainly.
-/
namespace ChatCommands
open Text

def boolText (b : Bool) : String := if b then "True" else "False"

def optionalText (s : Option String) : String := s.elim "None" quoted

def quotedList (texts : List String) : String := "[" ++ ", ".intercalate (texts.map quoted) ++ "]"

namespace Slot

def literal (s : Slot) : String :=
  "CommandArg(name=" ++ quoted s.name ++ ", required=" ++ boolText s.required ++ ", rest=" ++
    boolText s.rest ++ ", type=" ++ optionalText s.tag ++ ")"

/-- Slots in round brackets; a single one is followed by a comma. -/
def literals : List Slot → String
  | [s] => "(" ++ s.literal ++ ",)"
  | ss => "(" ++ ", ".intercalate (ss.map literal) ++ ")"

end Slot

namespace DateTime

/-- The parts of an offset that are not zero: days, which may be negative, and what is left. -/
def offsetParts (offset : Int) : List String :=
  let rest := (offset % perDay).toNat
  let parts := [("days", offset / perDay), ("seconds", ((rest / perSecond : Nat) : Int)),
    ("microseconds", ((rest % perSecond : Nat) : Int))]
  (parts.filter (·.2 != 0)).map fun p => p.1 ++ "=" ++ toString p.2

def zoneLiteral (offset : Int) : String :=
  if offset = 0 then "datetime.timezone.utc"
  else "datetime.timezone(datetime.timedelta(" ++ ", ".intercalate (offsetParts offset) ++ "))"

/-- The parts of a date, without what is zero after the minutes. -/
def literal (d : DateTime) : String :=
  let seconds := if d.microsecond = 0 then if d.second = 0 then [] else [d.second]
    else [d.second, d.microsecond]
  let parts := ([d.year, d.month, d.day, d.hour, d.minute] ++ seconds).map toString
  let zone := (d.offset.map fun z => "tzinfo=" ++ zoneLiteral z).toList
  "datetime.datetime(" ++ ", ".intercalate (parts ++ zone) ++ ")"

end DateTime

namespace Value

mutual

def literal : Value → String
  | .none => "None"
  | .bool b => boolText b
  | .int n => Number.integer n
  | .float x => Number.shortest x
  | .text s => quoted s
  | .list items => "[" ++ ", ".intercalate (literals items) ++ "]"
  | .dict entries => "\x7b" ++ ", ".intercalate (entryLiterals entries) ++ "\x7d"
  | .held _ => "[...]"
  | .date d => d.literal
  | .noDate => "INVALID_DATE"
  | .fault f => f.literal
  | .granted => "Authorized()"
  | .denied reason => "Denied(reason=" ++ literal reason ++ ")"
  | .outcome o => o.kind

def literals : List Value → List String
  | [] => []
  | v :: vs => literal v :: literals vs

def entryLiterals : List (String × Value) → List String
  | [] => []
  | (k, v) :: es => (quoted k ++ ": " ++ literal v) :: entryLiterals es

end

def shown : Value → String
  | .text s => s
  | .fault f => f.message
  | .date d => d.text " "
  | v => v.literal

end Value
end ChatCommands
