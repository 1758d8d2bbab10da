import ChatCommands.Engine.Basic
import ChatCommands.Number.Written

set_option autoImplicit false

/-!
# Built-in middleware

Three kinds of middleware are built in. One logs each event's outcome and how
long its listeners took, one logs the faults of commands and listeners, and one
counts the outcomes of each command. They look at the first argument of the
event, which for a finished command is its outcome; the context of the event is
open to all middleware, so that they may find any value there.
-/
namespace ChatCommands.Middleware
variable {σ : Type}

/-- The first argument of the event, or nothing if there are no arguments. -/
def subject? (context : EventContext) : Except Fault Value :=
  match context.find? "args" with
  | none => .ok .none
  | some v => if v.isTruthy then v.first? else .ok .none

def commandOf? : Value → Option Definition
  | .outcome o => o.command?
  | _ => none

def describe? : Value → Except Fault String
  | .none => .ok "unknown"
  | .outcome o => .ok o.kind
  | v => .error (.noAttribute v.typeName "success")

def eventName (context : EventContext) (default : Value) : Value :=
  (context.find? "event_name").getD default

/-- The seconds from a start, which the context holds as a value. -/
def secondsSince? (now : Binary64) : Value → Except Fault Binary64
  | .float x => .ok (now.sub x)
  | .int n =>
    match Binary64.ofInt? n with
    | some x => .ok (now.sub x)
    | none => .error .tooLarge
  | .bool b => .ok (now.sub (.ofRat (if b then 1 else 0)))
  | v => .error (.noDifference v.typeName)

/-- What the log says of the time since a start, nothing if there was none. -/
def tookText? (now : Binary64) (started : Value) : Except Fault String :=
  if started.isTruthy then
    (secondsSince? now started).map fun s => " (listeners took " ++ Number.fixed 3 s ++ "s)"
  else .ok ""

def logBefore (context : EventContext) : Engine σ (Except Fault Value × EventContext) := do
  let now ← Engine.request .seconds
  Engine.note (.eventStarted (eventName context .none))
  return (.ok .none, context.put "started_at" (.float now))

def logAfter (context : EventContext) : Engine σ (Except Fault Value × EventContext) :=
  match subject? context with
  | .error f => return (.error f, context)
  | .ok subject =>
    match describe? subject with
    | .error f => return (.error f, context)
    | .ok outcome => do
      let started := (context.find? "started_at").getD .none
      let context := context.erase "started_at"
      let now ← Engine.request .seconds
      match tookText? now started with
      | .error f => return (.error f, context)
      | .ok took =>
        Engine.note <| match commandOf? subject with
          | none => .eventCompleted (eventName context .none) took
          | some d =>
            if outcome = "success" then .commandFinished d.name outcome took
            else .commandFailed d.name outcome took
        return (.ok .none, context)

def noteFaults (event : Value) : List Value → Engine σ Unit
  | [] => .done ()
  | v :: vs => do
    Engine.note (.listenerFaultSeen event v)
    noteFaults event vs

/-- Reports the fault of a command that crashed and those of listeners. -/
def faultsAfter (host : Host σ) (context : EventContext) : Engine σ (Except Fault Value) :=
  match subject? context with
  | .error f => return .error f
  | .ok subject => do
    match subject with
    | .outcome (.failed d (.crashed f)) =>
      Engine.note (.commandCrashed d.name f)
      Engine.note (.crashTrace f)
    | _ => pure ()
    let s ← Engine.request (.effect (.host id))
    match host.elements? s ((context.find? "errors").getD (.list [])) with
    | .error f => return .error f
    | .ok faults =>
      noteFaults (eventName context (.text "unknown")) faults
      return .ok .none

def countBefore (number : Nat) (context : EventContext) : Engine σ (Except Fault Value) :=
  match subject? context with
  | .error f => return .error f
  | .ok (.outcome o) =>
    match o.command? with
    | none => return .ok .none
    | some d => do
      let total ← Engine.request (.count number d.name o.kind)
      Engine.note (.invocationCounted d.name o.kind total)
      return .ok .none
  | .ok _ => return .ok .none

def call (host : Host σ) (phase : Phase) (context : EventContext) :
    Middleware → Engine σ (Except Fault Value × EventContext)
  | .hook h => Engine.perform (Engine.noReply "NoneType") (host.middleware h phase) context
  | .outcomeLog _ =>
    match phase with
    | .before => logBefore context
    | .after => logAfter context
  | .faultLog _ =>
    match phase with
    | .before => return (.ok .none, context)
    | .after => do return (← faultsAfter host context, context)
  | .tally number =>
    match phase with
    | .before => do return (← countBefore number context, context)
    | .after => return (.ok .none, context)

end ChatCommands.Middleware
