import ChatCommands.Host.Basic

set_option autoImplicit false

/-!
# The engine

Dispatching a message and emitting an event are programs too. Besides what
callbacks can ask for, they look at and change the state that all dispatches
share: the cooldowns, the listeners and middleware, the counts and the clock.
Each request is one indivisible step, so that whatever other tasks do happens
between two requests.
-/
namespace ChatCommands

abbrev EventContext := Assoc Value

inductive EngineRequest (σ : Type) where
  | effect (e : Effect σ)
  /-- begins a run of the command unless it is blocked, and answers whether it has begun -/
  | claimRun (command : Definition)
  /-- ends a run that has begun -/
  | finish (command : String)
  /-- remembers a run that has succeeded, if the clock can be read -/
  | record (command : Definition)
  /-- the time of day in seconds -/
  | seconds
  | listeners (event : String)
  | middlewareAt (index : Nat)
  /-- calls the middleware from an index on -/
  | sweep (phase : Phase) (event : String) (index : Nat) (context : EventContext)
  /-- calls listeners side by side and waits for all of them, unless the wait is broken off -/
  | notify (listeners : List Hook) (arguments : List Value) (options : Assoc Value)
  /-- counts an outcome of a command and answers with the new count -/
  | count (number : Nat) (command outcome : String)

/-- The context of an event after a phase, and whether the event was stopped in it. -/
structure Swept where
  context : EventContext
  stopped : Bool

@[reducible] def EngineRequest.Answer {σ : Type} : EngineRequest σ → Type
  | .effect e => e.Answer
  | .claimRun _ => Bool
  | .finish _ => Unit
  | .record _ => Except Fault Unit
  | .seconds => Binary64
  | .listeners _ => List Hook
  | .middlewareAt _ => Option Middleware
  | .sweep .. => Except Fault Swept
  | .notify .. => Except Fault (List (Except Fault Value))
  | .count .. => Nat

@[reducible] def engineInterface (σ : Type) : Interface where
  Request := EngineRequest σ
  Answer := EngineRequest.Answer

abbrev Engine (σ α : Type) := Program (engineInterface σ) α

namespace Engine
variable {σ τ : Type}

def request (r : EngineRequest σ) : Engine σ r.Answer := .ask r .done

def note (n : Notice) : Engine σ Unit := request (.effect (.note n))

/-- Runs a script that was called with `t`. Replies are sent by `send`. -/
def perform (send : String → Engine σ (Except Fault Value)) :
    Script σ τ → τ → Engine σ (Except Fault Value × τ)
  | .done r, t => .done (r, t)
  | .ask (.effect e) next, t => .ask (.effect e) fun a => perform send (next a) t
  | .ask (.update f) next, t => perform send (next (f t)) (f t)
  | .ask (.reply text) next, t => (send text).bind fun a => perform send (next a) t

/-- The reply of a callback that was not called with a message to answer. -/
def noReply (called : String) (_ : String) : Engine σ (Except Fault Value) :=
  .done (.error (.noAttribute called "reply"))

/-- Runs a script that was called with nothing that it could change. -/
def runScript (s : Script σ Unit) : Engine σ (Except Fault Value) :=
  (perform (noReply "NoneType") s ()).bind fun r => .done r.1

end Engine

namespace Message
variable {σ : Type}

def answer (host : Host σ) (m : Message) (text : String) : Engine σ (Except Fault Value) :=
  match m.reply with
  | .missing type => .done (.error (.noAttribute type "reply"))
  | .closed => .done (.error (.notCallable Value.none.typeName))
  | .hook h => Engine.runScript (host.reply h text)
  | .oneWay h => (Engine.runScript (host.reply h text)).bind fun r => .done (r.map fun _ => .none)

end Message
end ChatCommands
