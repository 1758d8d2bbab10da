import ChatCommands.Value.Basic

set_option autoImplicit false

/-!
# Host objects

Callbacks of the host are known by a handle; what they do is told by a
`Host`. A message is what the host hands over for dispatch.
-/
namespace ChatCommands

/-- The identity of a callback of the host. -/
structure Hook where
  index : Nat
  deriving DecidableEq, Repr, Inhabited

/-- What stands where a callback is expected: one of the host's, one that always answers alike, or a
value that cannot be called. -/
inductive Callback where
  | hook (h : Hook)
  | fixed (answer : Except Fault Value)
  | value (v : Value)
  deriving Inhabited

namespace Callback

/-- A callback, unless it is the value that stands for none. -/
def given? : Callback → Option Callback
  | .value .none => none
  | c => some c

end Callback

/-- How the sender of a message can be answered. -/
inductive ReplyChannel where
  /-- messages of this type cannot be answered -/
  | missing (type : String)
  /-- there is nothing to call -/
  | closed
  /-- the host's callback, whose result is handed back -/
  | hook (h : Hook)
  /-- the host's callback, whose result is dropped -/
  | oneWay (h : Hook)
  deriving DecidableEq, Repr

structure Message where
  content : Option String
  reply : ReplyChannel
  /-- the guild in which the message was written, if any -/
  guild : Value := .none

/-- A definition with its callbacks. -/
structure Command where
  definition : Definition
  execute : Option Callback := none
  guard : Option Callback := none

namespace Command

def name (c : Command) : String := c.definition.name

def answersTo (c : Command) (keyword : String) : Bool := c.definition.answersTo keyword

end Command

/-- What receives every event before and after the listeners: a callback of the host, or one of
three built in, of which there can be several. -/
inductive Middleware where
  | hook (h : Hook)
  | outcomeLog (number : Nat)
  | faultLog (number : Nat)
  | tally (number : Nat)
  deriving DecidableEq, Repr

/-- Whether the listeners of an event are still to be called or have been. -/
inductive Phase where
  | before
  | after
  deriving DecidableEq, Repr

def Phase.label : Phase → String
  | .before => "pre"
  | .after => "post"

end ChatCommands
