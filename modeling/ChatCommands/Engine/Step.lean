import ChatCommands.Dispatch.Message
import ChatCommands.Event.Emission
import ChatCommands.Event.Tally

set_option autoImplicit false

/-!
# Steps

What each request means for the state that all tasks share. A request is one
step; dispatching a message, emitting an event and calling the next middleware
are unfolded into the programs that they stand for.
-/
namespace ChatCommands

/-- What stays the same while tasks run. -/
structure Surroundings (σ : Type) where
  host : Host σ
  dispatcher : Dispatcher

/-- The state that all tasks share. -/
structure Shared (σ : Type) where
  host : σ
  /-- milliseconds -/
  clock : Binary64
  subscribers : Subscribers := {}
  tracker : Tracker := {}
  tallies : Nat → Tally := fun _ => []
  /-- the notices given so far, the latest first -/
  journal : List Notice := []

namespace Shared
variable {σ : Type}

def seconds (s : Shared σ) : Binary64 := s.clock.timesRatio 1 1000

/-- The time by which cooldowns are measured. -/
def time (env : Surroundings σ) (s : Shared σ) : Binary64 :=
  match env.dispatcher.clock with
  | .wall => s.seconds.timesRatio 1000 1
  | _ => s.clock

def advance (s : Shared σ) (ms : Binary64) : Shared σ := { s with clock := s.clock.add ms }

def note (s : Shared σ) (n : Notice) : Shared σ := { s with journal := n :: s.journal }

def noteAll (s : Shared σ) (ns : List Notice) : Shared σ := { s with journal := ns.reverse ++ s.journal }

def isBlocked (env : Surroundings σ) (s : Shared σ) (command : String) : Bool :=
  s.tracker.isBlocked (s.time env) command

def claimRun (env : Surroundings σ) (s : Shared σ) (command : Definition) : Bool × Shared σ :=
  if s.isBlocked env command.name then
    (false, if s.tracker.isBusy command.name then s.note (.alreadyInFlight command.name) else s)
  else (true, { s with tracker := s.tracker.begin command.name })

/-- Remembers a run that has succeeded, unless the clock cannot be read. -/
def record (env : Surroundings σ) (s : Shared σ) (command : Definition) :
    Except Fault Unit × Shared σ :=
  match env.dispatcher.clock.fault? with
  | some f => (.error f, s)
  | none => (.ok (), { s with tracker := s.tracker.record (s.time env) command })

def edit (env : Surroundings σ) (s : Shared σ) (change : Edit) : Shared σ :=
  { s.noteAll (s.subscribers.notices env.host change) with subscribers := s.subscribers.apply change }

/-- Changes who receives events, unless these go nowhere. -/
def tryEdit (env : Surroundings σ) (s : Shared σ) (change : Edit) : Except Fault Unit × Shared σ :=
  match env.dispatcher.events.check change.member with
  | .error f => (.error f, s)
  | .ok _ => (.ok (), s.edit env change)

/-- The state as a new dispatcher finds it, with what the log says of its making and with the
middleware of its event system. -/
def withDispatcher (env : Surroundings σ) (s : Shared σ) (made : List Notice) : Shared σ :=
  let s := { s.noteAll made with tracker := env.dispatcher.tracker }
  match env.dispatcher.events with
  | .standard => Subscribers.standardMiddleware.foldl (fun s m => s.edit env (.install m)) s
  | _ => s

def count (s : Shared σ) (number : Nat) (command outcome : String) : Shared σ :=
  { s with tallies := fun n =>
      if n = number then (s.tallies n).add command outcome else s.tallies n }

end Shared

/-- What a task ends with. -/
inductive Finish where
  | value (r : Except Fault Value)
  | outcome (r : Except Fault Outcome)
  | bindings (r : Except BindingError (Assoc Value))
  | verdict (r : Except Fault Verdict) (arguments : Assoc Value)

abbrev Task (σ : Type) := Engine σ Finish

/-- What the next request of a task leads to. -/
inductive Step (σ : Type) where
  | go (task : Task σ) (shared : Shared σ)
  /-- the task waits for the host -/
  | wait (next : Except Fault Value → Task σ)
  /-- the task waits for tasks of its own -/
  | spawn (tasks : List (Engine σ (Except Fault Value)))
      (next : Except Fault (List (Except Fault Value)) → Task σ)
  | stop (finish : Finish)

namespace Task
variable {σ : Type}

def step (env : Surroundings σ) (s : Shared σ) : Task σ → Step σ
  | .done r => .stop r
  | .ask (.effect (.host f)) next => .go (next (f s.host)) { s with host := f s.host }
  | .ask (.effect .wait) next => .wait next
  | .ask (.effect (.advance ms)) next => .go (next ()) (s.advance ms)
  | .ask (.effect (.dispatch m)) next => .go ((env.dispatcher.process env.host m).bind next) s
  | .ask (.effect (.emit event arguments options)) next =>
    match env.dispatcher.events.check "emit" with
    | .error f => .go (next (.error f)) s
    | .ok _ => .go ((Event.emit env.host event arguments options).bind next) s
  | .ask (.effect (.edit change)) next => let (r, s) := s.tryEdit env change; .go (next r) s
  | .ask (.effect .resetCooldowns) next => .go (next ()) { s with tracker := s.tracker.reset }
  | .ask (.effect (.note n)) next => .go (next ()) (s.note n)
  | .ask (.claimRun command) next => let (claimed, s) := s.claimRun env command; .go (next claimed) s
  | .ask (.finish command) next => .go (next ()) { s with tracker := s.tracker.finish command }
  | .ask (.record command) next => let (r, s) := s.record env command; .go (next r) s
  | .ask .seconds next => .go (next s.seconds) s
  | .ask (.listeners event) next => .go (next (s.subscribers.listenersOf event)) s
  | .ask (.middlewareAt index) next => .go (next s.subscribers.middleware[index]?) s
  | .ask (.sweep phase event index context) next =>
    .go ((Event.sweepFrom env.host phase event index context).bind next) s
  | .ask (.notify listeners arguments options) next =>
    .spawn (listeners.map fun h => Engine.runScript (env.host.listener h arguments options)) next
  | .ask (.count number command outcome) next =>
    let s := s.count number command outcome
    .go (next ((s.tallies number).count command outcome)) s

end Task
end ChatCommands
