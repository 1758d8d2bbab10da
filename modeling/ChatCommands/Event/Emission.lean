import ChatCommands.Event.Middleware

set_option autoImplicit false

/-!
# Emitting events

An event goes through the middleware, then to its listeners, then through the
middleware again. Before the listeners, a middleware can stop the event, by
returning false or by marking the context; then nothing else is called. The
listeners are those registered when the event was emitted and they run side by
side; faults that they raise are put into the context for the middleware after
them. The middleware are called by their place in the list, which may change
meanwhile. Ordinary faults are noted and do not reach whoever emits the event.
-/
namespace ChatCommands.Event
variable {σ : Type}

/-- The context that the middleware see first. -/
def context (event : String) (arguments : List Value) (options : Assoc Value) : EventContext :=
  [("event_name", .text event), ("args", .list arguments), ("kwargs", .dict options),
   ("stopped", .bool false)]

def isStopped (context : EventContext) : Bool :=
  ((context.find? "stopped").map Value.isTruthy).getD false

/-- A middleware that returned this value lets the event go on, unless the context is marked. -/
def stops (returned : Value) (context : EventContext) : Bool :=
  match returned with
  | .bool false => true
  | _ => isStopped context

/-- Calls the middleware at an index and leaves the rest to the next sweep. -/
def sweepFrom (host : Host σ) (phase : Phase) (event : String) (index : Nat)
    (context : EventContext) : Engine σ (Except Fault Swept) := do
  match ← Engine.request (.middlewareAt index) with
  | none => return .ok ⟨context, false⟩
  | some m =>
    let (returned, context) ← m.call host phase context
    match returned with
    | .ok v =>
      if phase = .before ∧ stops v context then
        Engine.note (.eventStopped event)
        return .ok ⟨context, true⟩
      else Engine.request (.sweep phase event (index + 1) context)
    | .error f =>
      if f.isOrdinary then
        Engine.note (.middlewareFailed (host.middlewareName m) (phase = .after) f)
        Engine.request (.sweep phase event (index + 1) context)
      else return .error f

/-- The fault that a listener ended with: one that it raised or one that it returned. -/
def faultOf? : Except Fault Value → Option Fault
  | .error f => if f.isOrdinary then some f else none
  | .ok (.fault f) => if f.isOrdinary then some f else none
  | .ok _ => none

/-- Adds a fault to those in the context. These may be in a list of the host's; then it is that list
that the fault has to be added to. -/
def addFault? (f : Fault) (context : EventContext) : Except Fault (EventContext × Option Nat) :=
  match (context.find? "errors").getD (.list []) with
  | .held n => .ok (context, some n)
  | v => (v.push? (.fault f)).map fun v => (context.put "errors" v, none)

/-- Notes the faults of listeners and adds them to the context. -/
def gatherFaults (host : Host σ) (event : String) (context : EventContext) :
    List (Hook × Except Fault Value) → Engine σ (Except Fault EventContext)
  | [] => .done (.ok context)
  | (h, r) :: rest =>
    match faultOf? r with
    | none => gatherFaults host event context rest
    | some f => do
      Engine.note (.listenerFailed event (host.name h) f)
      match addFault? f context with
      | .error g => return .error g
      | .ok (context, none) => gatherFaults host event context rest
      | .ok (context, some n) => do
        discard (Engine.request (.effect (.host (host.extend n (.fault f)))))
        gatherFaults host event context rest

/-- What an event is emitted with takes these names itself. -/
def emissionNames : List String := ["self", "event_name"]

/-- Calling a listener takes this name itself. -/
def listenerName : String := "func"

/-- Calls the listeners, unless an option has the name that calling one takes itself. -/
def notify (listeners : List Hook) (arguments : List Value) (options : Assoc Value) :
    Engine σ (Except Fault (List (Except Fault Value))) :=
  if listeners ≠ [] ∧ options.keys.contains listenerName then
    return .error (.givenTwice "call_maybe_async" listenerName)
  else Engine.request (.notify listeners arguments options)

/-- Emits an event whose options have names of their own. -/
def emitFreely (host : Host σ) (event : String) (arguments : List Value) (options : Assoc Value) :
    Engine σ (Except Fault Unit) := do
  let listeners ← Engine.request (.listeners event)
  match ← Engine.request (.sweep .before event 0 (context event arguments options)) with
  | .error f => return .error f
  | .ok ⟨_, true⟩ => return .ok ()
  | .ok ⟨context, false⟩ =>
    match ← notify listeners arguments options with
    | .error f => return .error f
    | .ok results =>
      match ← gatherFaults host event context (listeners.zip results) with
      | .error f => return .error f
      | .ok context =>
        match ← Engine.request (.sweep .after event 0 context) with
        | .error f => return .error f
        | .ok _ => return .ok ()

def emit (host : Host σ) (event : String) (arguments : List Value) (options : Assoc Value) :
    Engine σ (Except Fault Unit) :=
  match options.keys.find? (emissionNames.contains ·) with
  | some name => return .error (.givenTwice "EventSystem.emit" name)
  | none => emitFreely host event arguments options

end ChatCommands.Event
