import Mathlib
import ChatCommands.Proofs.DispatchReturns
import ChatCommands.Proofs.ThreadPlay

set_option autoImplicit false

/-!
# The stages of a dispatch

What a thread does that dispatches a message is decided by the first stage that
fails: the message makes no invocation, its keyword is that of no command, the
command is blocked, an argument cannot be bound, the guard denies, or the command
crashes. Nothing of a later stage is played then, but an admitted run is released
all the same and the outcome of a command is emitted.
-/
namespace ChatCommands
variable {σ α : Type}

namespace Dispatcher

section
variable (env : Surroundings σ) (m : Message)

/-- The sender was told once what is wrong with the arguments, if that is wanted and possible. -/
inductive Replied (text : String) : List (Moment σ) → Prop where
  | unwanted (h : env.dispatcher.options.replyOnArgumentErrors = false) : Replied text []
  | impossible (h : ∀ k, m.reply ≠ .hook k ∧ m.reply ≠ .oneWay k) : Replied text []
  | sent {h : Hook} {t : List (Moment σ)} {v : Value}
      (wanted : env.dispatcher.options.replyOnArgumentErrors = true)
      (channel : m.reply = .hook h ∨ m.reply = .oneWay h)
      (called : Plays env (Engine.runScript (env.host.reply h text)) t (some (.ok v))) : Replied text t
  | failed {h : Hook} {t : List (Moment σ)} {e : Moment σ} {f : Fault}
      (wanted : env.dispatcher.options.replyOnArgumentErrors = true)
      (channel : m.reply = .hook h ∨ m.reply = .oneWay h)
      (called : Plays env (Engine.runScript (env.host.reply h text)) t (some (.error f)))
      (noted : e.deed = .asks (.effect (.note (.replyFailed f)))) : Replied text (t ++ [e])

/-- The failure as which an error in the arguments is reported. -/
def failureOf? : BindingError → Option Failure
  | .missing slot => some (.missing slot)
  | .invalid slot token _ => some (.invalid slot token)
  | .escaped _ => none

/-- The guard, if there is one, lets the command run and leaves it these arguments. -/
inductive Grants (command : Command) : Assoc Value → List (Moment σ) → Assoc Value → Prop where
  | unguarded (arguments : Assoc Value) (unguarded : command.guard = none) :
      Grants command arguments [] arguments
  | granted {guard : Callback} {arguments arguments' : Assoc Value} {t : List (Moment σ)}
      (guarded : command.guard = some guard)
      (evaluated : Plays env (Guard.evaluate env.host command.name guard arguments (some m)) t
        (some (.ok .granted, arguments'))) : Grants command arguments t arguments'

/-- How a run of a command goes, with its outcome and the run that is remembered. -/
inductive Ran (command : Command) (arguments : Assoc Value) :
    List (Moment σ) → Outcome → Option Run → Prop where
  | crashed {t : List (Moment σ)} {f : Fault} {e : Moment σ}
      (executed : Plays env (callExecute env.host m command.definition command.execute arguments) t
        (some (.error f)))
      (noted : e.deed = .asks (.effect (.note (.executionFailed command.name f)))) :
      Ran command arguments (t ++ [e]) (.failed command.definition (.crashed f)) none
  | succeeded {t : List (Moment σ)} {v : Value} {e : Moment σ}
      (executed : Plays env (callExecute env.host m command.definition command.execute arguments) t
        (some (.ok v)))
      (recorded : e.deed = .asks (.record command.definition)) :
      Ran command arguments (t ++ [e]) (.succeeded command.definition)
        (some ⟨command.definition, e.before.shared.time env⟩)

/-- How an admitted command goes on. -/
inductive Attempts (command : Command) (tokens : List String) :
    List (Moment σ) → Outcome → Option Run → Prop where
  | refused {t u : List (Moment σ)} {e : BindingError} {why : Failure}
      (bound : Plays env (Argument.bind env.host env.dispatcher.parsers (some m)
        command.definition.slots tokens) t (some (.error e)))
      (reported : failureOf? e = some why) (replied : Replied env m e.message u) :
      Attempts command tokens (t ++ u) (.failed command.definition why) none
  | denied {t u : List (Moment σ)} {guard : Callback} {arguments arguments' : Assoc Value}
      {reason : Value} (bound : Plays env (Argument.bind env.host env.dispatcher.parsers (some m)
        command.definition.slots tokens) t (some (.ok arguments)))
      (guarded : command.guard = some guard)
      (evaluated : Plays env (Guard.evaluate env.host command.name guard arguments (some m)) u
        (some (.ok (.denied reason), arguments'))) :
      Attempts command tokens (t ++ u) (.failed command.definition (.blocked reason)) none
  | ran {t u v : List (Moment σ)} {arguments arguments' : Assoc Value} {o : Outcome}
      {recorded : Option Run} (bound : Plays env (Argument.bind env.host env.dispatcher.parsers (some m)
        command.definition.slots tokens) t (some (.ok arguments)))
      (grants : Grants env m command arguments u arguments')
      (ran : Ran env m command arguments' v o recorded) :
      Attempts command tokens (t ++ (u ++ v)) o recorded

/-- How a command goes that was looked up while the tracker was in this state. -/
inductive Invokes (tracker : Tracker) (command : Command) (tokens : List String) :
    List (Moment σ) → Outcome → Option Run → Prop where
  | coolingDown {a : Moment σ} (claims : a.deed = .asks (.claimRun command.definition))
      (unchanged : a.before.shared.tracker = tracker)
      (blocked : tracker.isBlocked (a.before.shared.time env) command.name = true) :
      Invokes tracker command tokens [a] (.failed command.definition .coolingDown) none
  | admitted {a z : Moment σ} {t : List (Moment σ)} {o : Outcome} {recorded : Option Run}
      (claims : a.deed = .asks (.claimRun command.definition))
      (unchanged : a.before.shared.tracker = tracker)
      (free : tracker.isBlocked (a.before.shared.time env) command.name = false)
      (attempts : Attempts env m command tokens t o recorded)
      (released : z.deed = .asks (.finish command.name)) :
      Invokes tracker command tokens (a :: (t ++ [z])) o recorded

/-- How a message is dispatched that comes while the tracker is in this state: the outcome, and the run
that is remembered. -/
inductive Staged (tracker : Tracker) : List (Moment σ) → Outcome → Option Run → Prop where
  | unread (unread : Invocation.read? env.dispatcher.options.prelude m.content = none) :
      Staged tracker [] (.ignored false) none
  | unknown {i : Invocation}
      (read : Invocation.read? env.dispatcher.options.prelude m.content = some i)
      (absent : env.dispatcher.registry.lookup? i.keyword = none) : Staged tracker [] (.ignored true) none
  | invoked {i : Invocation} {command : Command} {c e : Moment σ} {t u : List (Moment σ)}
      {o : Outcome} {recorded : Option Run}
      (read : Invocation.read? env.dispatcher.options.prelude m.content = some i)
      (found : env.dispatcher.registry.lookup? i.keyword = some command)
      (noted : c.deed = .asks (.effect (.note
        (.commandCalled env.dispatcher.options.prelude i.keyword command.name))))
      (invokes : Invokes env m tracker command i.tokens t o recorded)
      (emits : e.deed = .asks (.effect (.emit finishedEvent [.outcome o] [])))
      (emitted : Plays env (Event.emit env.host finishedEvent [.outcome o] []) u (some (.ok ()))) :
      Staged tracker (c :: (t ++ e :: u)) o recorded

end

/-- What the thread was told while it did this is nothing fatal. -/
structure Calm (t : List (Moment σ)) : Prop where
  resumed : ∀ m ∈ t, ∀ x, m.deed = .resumes x → Ordinary x
  heard : ∀ m ∈ t, ∀ xs, m.deed = .hears xs → ∃ results, xs = .ok results

theorem Calm.mono {t u : List (Moment σ)} (calm : Calm t) (sub : u ⊆ t) : Calm u where
  resumed m hm := calm.resumed m (sub hm)
  heard m hm := calm.heard m (sub hm)

variable {env : Surroundings σ} {m : Message} {command : Command} {t : List (Moment σ)}

/-- The host's callbacks raise ordinary faults only and leave the list of faults in its place, and what the
dispatcher works with can be used. -/
structure Sound (env : Surroundings σ) : Prop where
  equipped : env.dispatcher.Equipped
  ordinary : env.host.Ordinary
  kept : env.host.KeepsErrors

/-- A play in which nothing fatal is told ends as the program usually does. -/
theorem Sound.usually (sound : Sound env) {p : Engine σ α} {Q : α → Prop} {a : α}
    (usually : p.Usually True Q) (calm : Calm t) (h : Plays env p t (some a)) : Q a :=
  h.follows (usual_kept sound.equipped sound.ordinary fun _ => sound.kept) (fun _ _ _ => rfl)
    (usually true) (fun m hm x told => calm.resumed m hm x told)
    fun m hm xs told _ _ _ => calm.heard m hm xs told

end Dispatcher
end ChatCommands
