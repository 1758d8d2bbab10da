import ChatCommands.Assoc
import ChatCommands.Host.Message
import ChatCommands.Host.Program
import ChatCommands.Notice

set_option autoImplicit false

/-!
# What callbacks do

The host has a state of its own, of a type `σ` that the library knows nothing
about. A callback is a script: a program that may look at that state and change
it, change what it was called with (of type `τ`), answer the message, wait for
the host, move the clock, have another message dispatched, emit an event and
change who receives events. It ends with a value or a fault.
-/
namespace ChatCommands

/-- A change of who receives events. -/
inductive Edit where
  | listen (event : String) (listener : Hook)
  | unlisten (event : String) (listener : Hook)
  | install (middleware : Middleware)
  | uninstall (middleware : Middleware)
  deriving DecidableEq, Repr

/-- The member of an event system that makes a change. -/
def Edit.member : Edit → String
  | .listen .. => "add_listener"
  | .unlisten .. => "remove_listener"
  | .install _ => "add_middleware"
  | .uninstall _ => "remove_middleware"

/-- What a running callback can ask for. -/
inductive Effect (σ : Type) where
  /-- changes the host's state and answers with the new one -/
  | host (change : σ → σ)
  /-- waits until the host goes on with a value or a fault -/
  | wait
  /-- moves the clock by so many milliseconds -/
  | advance (ms : Binary64)
  | dispatch (message : Message)
  | emit (event : String) (arguments : List Value) (options : Assoc Value)
  | edit (change : Edit)
  /-- forgets all runs of commands -/
  | resetCooldowns
  | note (notice : Notice)

namespace Effect

@[reducible] def Answer {σ : Type} : Effect σ → Type
  | .host _ => σ
  | .wait => Except Fault Value
  | .dispatch _ => Except Fault Outcome
  | .emit .. | .edit _ => Except Fault Unit
  | .advance _ | .resetCooldowns | .note _ => Unit

end Effect

/-- What a callback that was called with a `τ` can ask for. -/
inductive HookRequest (σ τ : Type) where
  | effect (e : Effect σ)
  /-- changes what the callback was called with and answers with the new one -/
  | update (change : τ → τ)
  /-- answers the message -/
  | reply (text : String)

@[reducible] def HookRequest.Answer {σ τ : Type} : HookRequest σ τ → Type
  | .effect e => e.Answer
  | .update _ => τ
  | .reply _ => Except Fault Value

@[reducible] def hookInterface (σ τ : Type) : Interface where
  Request := HookRequest σ τ
  Answer := HookRequest.Answer

abbrev Script (σ τ : Type) := Program (hookInterface σ τ) (Except Fault Value)

end ChatCommands
