import ChatCommands.Definition.Basic
import ChatCommands.Guard.Ballot
import ChatCommands.Host.Script

set_option autoImplicit false

/-!
# Hosts

A host says what each of its callbacks is called in the log and what it does in
each of the parts that a callback can play.
-/
namespace ChatCommands

structure Host (σ : Type) where
  name : Hook → String
  /-- runs a command, for a message, with its arguments -/
  execute : Hook → Message → Definition → Script σ (Assoc Value)
  guard : Hook → Option Message → Script σ Ballot
  reply : Hook → String → Script σ Unit
  listener : Hook → List Value → Assoc Value → Script σ Unit
  middleware : Hook → Phase → Script σ (Assoc Value)
  /-- reads a token for a slot -/
  parse : Hook → String → Slot → Option Message → Script σ Unit
  /-- looks up a member by the digits of its id -/
  resolve : Hook → String → Option Message → Script σ Unit
  /-- what is in one of the host's own lists -/
  listed : Nat → σ → List Value
  /-- adds a value to one of the host's own lists -/
  extend : Nat → Value → σ → σ

namespace Host
variable {σ : Type}

/-- A host without callbacks. -/
def silent : Host σ where
  name _ := ""
  execute _ _ _ := .done (.ok .none)
  guard _ _ := .done (.ok .none)
  reply _ _ := .done (.ok .none)
  listener _ _ _ := .done (.ok .none)
  middleware _ _ := .done (.ok .none)
  parse _ _ _ _ := .done (.ok .none)
  resolve _ _ _ := .done (.ok .none)
  listed _ _ := []
  extend _ _ s := s

/-- The elements of a value that can be gone through. -/
def elements? (host : Host σ) (s : σ) : Value → Except Fault (List Value)
  | .held n => .ok (host.listed n s)
  | v => v.elements?

def middlewareName (host : Host σ) : Middleware → String
  | .hook h => host.name h
  | .outcomeLog _ => "LoggingMiddleware"
  | .faultLog _ => "ErrorHandlerMiddleware"
  | .tally _ => "AnalyticsMiddleware"

end Host
end ChatCommands
