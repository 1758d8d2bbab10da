import ChatCommands.Registry.Basic
import ChatCommands.Registry.Object

set_option autoImplicit false

/-!
# Declared commands

Commands can be declared on the members of an object. Collecting goes through
all names of the object, each name once, and takes the declaration of what the
name means. A guard that is named is what its name means on the same object.
-/
namespace ChatCommands.DeclaringObject

/-- The guard that a declaration on the object refers to. -/
def guardFor (o : DeclaringObject) : GuardReference → Except Fault (Option Callback)
  | .none => .ok none
  | .callback h => .ok (some (.hook h))
  | .member name => do
    match ← o.lookUp name with
    | some m => return some m.value
    | none => .error (o.missing name)

/-- Adds what the names declare. A later declaration of the same definition replaces an earlier. -/
def collectFrom (o : DeclaringObject) (found : Assoc Handler) :
    List String → Except Fault (Assoc Handler)
  | [] => .ok found
  | name :: names => do
    match ← o.lookUp name with
    | some { value, declaration := some d } =>
      let guard ← o.guardFor d.guard
      collectFrom o (found.put d.definition ⟨some value, guard⟩) names
    | _ => collectFrom o found names

def collect (o : DeclaringObject) : Except Fault (Assoc Handler) := do
  let sequence ← o.memberNames
  let found ← o.collectFrom [] sequence.names
  match sequence.stop with
  | none => return found
  | some f => .error f

end ChatCommands.DeclaringObject
