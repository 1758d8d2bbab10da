import ChatCommands.Argument.Binding
import ChatCommands.Dispatch.Dispatcher
import ChatCommands.Guard.Evaluation
import ChatCommands.Invocation

set_option autoImplicit false

/-!
# Dispatching a message

A message goes through stages: it has to make an invocation, the keyword has to
be that of a command, the command must not be blocked, its arguments have to be
bound, its guard has to let it run, and then it runs. The first stage that fails
decides the outcome. A run begins when the command is admitted and ends however
the later stages end; only a run that succeeds is recorded. What became of a
command that was looked up is emitted as an event.
-/
namespace ChatCommands.Dispatcher
variable {σ : Type}

/-- The event that reports the outcome of a command. -/
def finishedEvent : String := "command_finished"

/-- Tells the sender what is wrong with the arguments, if that is wanted and possible. -/
def replyWithError (d : Dispatcher) (host : Host σ) (message : Message) (e : BindingError) :
    Engine σ (Except Fault Unit) :=
  let possible := match message.reply with
    | .missing _ | .closed => false
    | _ => true
  if d.options.replyOnArgumentErrors && possible then do
    match ← message.answer host e.message with
    | .ok _ => return .ok ()
    | .error f =>
      if f.isOrdinary then
        Engine.note (.replyFailed f)
        return .ok ()
      else return .error f
  else return .ok ()

def callExecute (host : Host σ) (message : Message) (definition : Definition)
    (execute : Option Callback) (arguments : Assoc Value) : Engine σ (Except Fault Value) :=
  match execute with
  | none => return .error (.notCallable Value.none.typeName)
  | some (.value v) => return .error (.notCallable v.typeName)
  | some (.fixed answer) => return answer
  | some (.hook h) => do
    let (r, _) ← Engine.perform (message.answer host) (host.execute h message definition) arguments
    return r

def run (host : Host σ) (message : Message) (command : Command) (arguments : Assoc Value) :
    Engine σ (Except Fault Outcome) := do
  match ← callExecute host message command.definition command.execute arguments with
  | .ok _ =>
    match ← Engine.request (.record command.definition) with
    | .ok _ => return .ok (.succeeded command.definition)
    | .error f => return .error f
  | .error f =>
    if f.isOrdinary then
      Engine.note (.executionFailed command.name f)
      return .ok (.failed command.definition (.crashed f))
    else return .error f

/-- Asks the guard, if there is one, and runs the command if it lets it. -/
def guardAndRun (host : Host σ) (message : Message) (command : Command) (arguments : Assoc Value) :
    Engine σ (Except Fault Outcome) :=
  match command.guard with
  | none => run host message command arguments
  | some guard => do
    let (verdict, arguments) ← Guard.evaluate host command.name guard arguments (some message)
    match verdict with
    | .error f => return .error f
    | .ok (.denied reason) => return .ok (.failed command.definition (.blocked reason))
    | .ok .granted => run host message command arguments

/-- The failure that an error in the arguments means; a fault that is not about them passes. -/
def refuse (d : Dispatcher) (host : Host σ) (message : Message) (command : Command) :
    BindingError → Engine σ (Except Fault Outcome)
  | .escaped f => return .error f
  | .missing slot => do
    match ← d.replyWithError host message (.missing slot) with
    | .error f => return .error f
    | .ok _ => return .ok (.failed command.definition (.missing slot))
  | .invalid slot token cause => do
    match ← d.replyWithError host message (.invalid slot token cause) with
    | .error f => return .error f
    | .ok _ => return .ok (.failed command.definition (.invalid slot token))

def attempt (d : Dispatcher) (host : Host σ) (message : Message) (command : Command)
    (tokens : List String) : Engine σ (Except Fault Outcome) := do
  match ← Argument.bind host d.parsers (some message) command.definition.slots tokens with
  | .ok arguments => guardAndRun host message command arguments
  | .error e => d.refuse host message command e

/-- Admits the command, attempts a run and ends it. -/
def invoke (d : Dispatcher) (host : Host σ) (message : Message) (command : Command)
    (tokens : List String) : Engine σ (Except Fault Outcome) := do
  if ← Engine.request (.claimRun command.definition) then
    let outcome ← d.attempt host message command tokens
    Engine.request (.finish command.name)
    return outcome
  else return .ok (.failed command.definition .coolingDown)

def process (d : Dispatcher) (host : Host σ) (message : Message) : Engine σ (Except Fault Outcome) :=
  match Invocation.read? d.options.prelude message.content with
  | none => return .ok (.ignored false)
  | some invocation =>
    match d.registry.lookup? invocation.keyword with
    | none => return .ok (.ignored true)
    | some command => do
      Engine.note (.commandCalled d.options.prelude invocation.keyword command.name)
      match ← d.invoke host message command invocation.tokens with
      | .error f => return .error f
      | .ok outcome =>
        match ← Engine.request (.effect (.emit finishedEvent [.outcome outcome] [])) with
        | .error f => return .error f
        | .ok _ => return .ok outcome

end ChatCommands.Dispatcher
