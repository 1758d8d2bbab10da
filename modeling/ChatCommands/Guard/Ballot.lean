import ChatCommands.Assoc
import ChatCommands.Value.Basic

set_option autoImplicit false

/-!
# Ballots

A guard decides whether a command may run. It may vote on the ballot that it is
called with, any number of times for and against, and it may return a verdict.
A vote against outweighs all else and the first reason given stands; without
one a returned refusal stands; and then a single vote for, or a returned
permission, grants. A guard that does none of this decides nothing.
-/
namespace ChatCommands

/-- What a guard finally means for the command. -/
inductive Verdict where
  | granted
  | denied (reason : Value)
  deriving Inhabited

/-- The bound arguments that a guard sees and the votes that it has cast. -/
structure Ballot where
  arguments : Assoc Value
  approved : Bool := false
  /-- the reason of the first vote against, if there was one -/
  denial : Option Value := none

namespace Ballot

def approve (b : Ballot) : Ballot := { b with approved := true }

def deny (reason : Value) (b : Ballot) : Ballot :=
  { b with denial := some (b.denial.getD reason) }

def decide? (b : Ballot) (returned : Value) : Option Verdict :=
  match b.denial, returned with
  | some reason, _ => some (.denied reason)
  | none, .denied reason => some (.denied reason)
  | none, .granted => some .granted
  | none, _ => if b.approved then some .granted else none

end Ballot
end ChatCommands
