import ChatCommands.Calendar.DateTime
import ChatCommands.Definition.Basic
import ChatCommands.Fault
import ChatCommands.Number.Binary64

set_option autoImplicit false

/-!
# Values and outcomes

Values are what host code and the library hand to each other: bound arguments,
reasons, event arguments, what a callback returns. The outcome of a message is a
value too, since it is the argument of the event that reports it.
-/
namespace ChatCommands

mutual

inductive Value where
  | none
  | bool (b : Bool)
  | int (n : Int)
  | float (x : Binary64)
  | text (s : String)
  | list (items : List Value)
  | dict (entries : List (String × Value))
  /-- a list that belongs to the host, which alone knows what is in it -/
  | held (number : Nat)
  | date (d : DateTime)
  /-- stands for a date that could not be read -/
  | noDate
  | fault (f : Fault)
  /-- a guard lets the command run -/
  | granted
  /-- a guard keeps the command from running -/
  | denied (reason : Value)
  | outcome (o : Outcome)

/-- What became of one message. -/
inductive Outcome where
  /-- no command was invoked -/
  | ignored (preludeMatched : Bool)
  | succeeded (command : Definition)
  | failed (command : Definition) (why : Failure)

/-- Why a command that was invoked did not succeed. -/
inductive Failure where
  | coolingDown
  | missing (slot : Slot)
  | invalid (slot : Slot) (token : String)
  | blocked (reason : Value)
  | crashed (f : Fault)

end

instance : Inhabited Value := ⟨.none⟩
instance : Inhabited Outcome := ⟨.ignored false⟩
instance : Inhabited Failure := ⟨.coolingDown⟩

namespace Failure

def kind : Failure → String
  | .coolingDown => "cooldown-in-effect"
  | .missing _ => "missing-required-arg"
  | .invalid .. => "invalid-arg-value"
  | .blocked _ => "blocked-by-guard"
  | .crashed _ => "unhandled-command-execution-error"

end Failure

namespace Outcome

def command? : Outcome → Option Definition
  | .ignored _ => none
  | .succeeded d => some d
  | .failed d _ => some d

def isSuccess : Outcome → Bool
  | .failed .. => false
  | _ => true

/-- The word for an outcome: that of its failure, or success. -/
def kind : Outcome → String
  | .failed _ why => why.kind
  | _ => "success"

end Outcome

namespace Value

def typeName : Value → String
  | .none => "NoneType"
  | .bool _ => "bool"
  | .int _ => "int"
  | .float _ => "float"
  | .text _ => "str"
  | .list _ | .held _ => "list"
  | .dict _ => "dict"
  | .date _ => "datetime"
  | .noDate => "_InvalidDate"
  | .fault f => f.label
  | .granted => "Authorized"
  | .denied _ => "Denied"
  | .outcome _ => "InvocationResult"

/-- Whether a value counts as true in a condition: nothing, zero and what is empty do not. -/
def isTruthy : Value → Bool
  | .none | .noDate => false
  | .bool b => b
  | .int n => n != 0
  | .float x => !x.isZero
  | .text s => s != ""
  | .list items => !items.isEmpty
  | .dict entries => !entries.isEmpty
  | _ => true

/-- The number that a value is, if it is one; truth values are zero and one. -/
def number? : Value → Option Rat
  | .bool b => some (if b then 1 else 0)
  | .int n => some n
  | .float x => x.finite?.map (·.toRat)
  | _ => Option.none

/-- Whether two values are the same key. Equal numbers are, of whatever type. -/
def sameKey : Value → Value → Bool
  | .none, .none => true
  | .text s, .text t => s == t
  | .float (.infinite s), .float (.infinite t) => s == t
  | v, w => v.number?.isSome && v.number? == w.number?

/-- A value that can be a key; those that have elements of their own cannot. -/
def key? : Value → Except Fault Value
  | .list items => .error (.noKey (Value.list items).typeName)
  | .dict entries => .error (.noKey (Value.dict entries).typeName)
  | v => .ok v

/-- The first element of a value that has elements by position, for a value that counts as true. -/
def first? : Value → Except Fault Value
  | .list (v :: _) => .ok v
  | .text s => .ok (.text (String.ofList (s.toList.take 1)))
  | .dict _ => .error .noFirst
  | v => .error (.notSubscriptable v.typeName)

/-- The elements of a value that can be gone through. -/
def elements? : Value → Except Fault (List Value)
  | .list items => .ok items
  | .text s => .ok (s.toList.map fun c => .text (String.singleton c))
  | .dict entries => .ok (entries.map fun e => .text e.1)
  | v => .error (.notIterable v.typeName)

def push? (list v : Value) : Except Fault Value :=
  match list with
  | .list items => .ok (.list (items ++ [v]))
  | w => .error (.noAttribute w.typeName "append")

end Value
end ChatCommands
