import ChatCommands.Assoc
import ChatCommands.Host.Message

set_option autoImplicit false

/-!
# Members

A member of an object is a value or a callback under a name. A callback may be
declared to run a command, with a guard that is a callback too or another member
of the same object.
-/
namespace ChatCommands

/-- How a declaration names its guard. -/
inductive GuardReference where
  | none
  | callback (h : Hook)
  /-- another member of the same object -/
  | member (name : String)
  deriving DecidableEq, Repr

structure Declaration where
  definition : String
  guard : GuardReference := .none
  deriving DecidableEq, Repr

structure Member where
  value : Callback
  declaration : Option Declaration := none

namespace Member

def ofValue (v : Value) : Member := { value := .value v }

/-- What a member is outside any object. -/
def typeName (m : Member) : String :=
  match m.value with
  | .value v => v.typeName
  | _ => "function"

/-- Refuses a member that is called for and cannot be called. -/
def checkCallable (m : Member) : Except Fault Unit :=
  match m.value with
  | .value v => .error (.notCallable v.typeName)
  | _ => .ok ()

end Member
end ChatCommands
