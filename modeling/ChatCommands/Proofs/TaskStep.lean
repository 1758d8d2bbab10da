import Mathlib
import ChatCommands.Engine.World
import ChatCommands.Proofs.ProgramTrace

set_option autoImplicit false

/-!
# What a step can do

A step of a task answers a request from the shared state, unfolds it into the
program that it stands for, hands the task over to the host, starts tasks of its
own, or ends it. A turn of the world is such a step, or it passes on the news
that a task has ended, or it does nothing. All that is proved about runs of the
world goes through these two inversions.
-/
namespace ChatCommands
variable {σ : Type}

/-- The answers that the shared state gives at once, with the state after them. -/
inductive Answers (env : Surroundings σ) (s : Shared σ) :
    (r : EngineRequest σ) → r.Answer → Shared σ → Prop where
  | host (f : σ → σ) : Answers env s (.effect (.host f)) (f s.host) { s with host := f s.host }
  | advance (ms : Binary64) : Answers env s (.effect (.advance ms)) () (s.advance ms)
  | emitNowhere (event : String) (arguments : List Value) (options : Assoc Value) (f : Fault)
      (h : env.dispatcher.events.check "emit" = .error f) :
      Answers env s (.effect (.emit event arguments options)) (.error f) s
  | edit (change : Edit) :
      Answers env s (.effect (.edit change)) (s.tryEdit env change).1 (s.tryEdit env change).2
  | reset : Answers env s (.effect .resetCooldowns) () { s with tracker := s.tracker.reset }
  | note (n : Notice) : Answers env s (.effect (.note n)) () (s.note n)
  | claimRun (c : Definition) :
      Answers env s (.claimRun c) (s.claimRun env c).1 (s.claimRun env c).2
  | finish (name : String) :
      Answers env s (.finish name) () { s with tracker := s.tracker.finish name }
  | record (c : Definition) : Answers env s (.record c) (s.record env c).1 (s.record env c).2
  | seconds : Answers env s .seconds s.seconds s
  | listeners (event : String) : Answers env s (.listeners event) (s.subscribers.listenersOf event) s
  | middlewareAt (index : Nat) :
      Answers env s (.middlewareAt index) s.subscribers.middleware[index]? s
  | count (number : Nat) (command outcome : String) :
      Answers env s (.count number command outcome)
        (((s.count number command outcome).tallies number).count command outcome)
        (s.count number command outcome)

/-- The requests that stand for programs, each with its program. -/
inductive Expands (env : Surroundings σ) : (r : EngineRequest σ) → Engine σ r.Answer → Prop where
  | dispatch (m : Message) :
      Expands env (.effect (.dispatch m)) (env.dispatcher.process env.host m)
  | emit (event : String) (arguments : List Value) (options : Assoc Value)
      (h : env.dispatcher.events.check "emit" = .ok ()) :
      Expands env (.effect (.emit event arguments options))
        (Event.emit env.host event arguments options)
  | sweep (phase : Phase) (event : String) (index : Nat) (context : EventContext) :
      Expands env (.sweep phase event index context)
        (Event.sweepFrom env.host phase event index context)

def listenerTasks (env : Surroundings σ) (listeners : List Hook) (arguments : List Value)
    (options : Assoc Value) : List (Engine σ (Except Fault Value)) :=
  listeners.map fun h => Engine.runScript (env.host.listener h arguments options)

/-- The ways in which a task takes a step. -/
inductive Task.Stepped (env : Surroundings σ) (s : Shared σ) : Task σ → Step σ → Prop where
  | stop (r : Finish) : Stepped env s (.done r) (.stop r)
  | answer {r : EngineRequest σ} {next : r.Answer → Task σ} {x : r.Answer} {s' : Shared σ}
      (h : Answers env s r x s') : Stepped env s (.ask r next) (.go (next x) s')
  | expand {r : EngineRequest σ} {next : r.Answer → Task σ} {p : Engine σ r.Answer}
      (h : Expands env r p) : Stepped env s (.ask r next) (.go (p.bind next) s)
  | wait (next : Except Fault Value → Task σ) :
      Stepped env s (.ask (.effect .wait) next) (.wait next)
  | spawn (listeners : List Hook) (arguments : List Value) (options : Assoc Value)
      (next : Except Fault (List (Except Fault Value)) → Task σ) :
      Stepped env s (.ask (.notify listeners arguments options) next)
        (.spawn (listenerTasks env listeners arguments options) next)

theorem Task.step_stepped (env : Surroundings σ) (s : Shared σ) (p : Task σ) :
    Task.Stepped env s p (p.step env s) := by
  cases p with
  | done r => exact .stop r
  | ask r next =>
    cases r with
    | effect e =>
      cases e with
      | host f => exact .answer (.host f)
      | wait => exact .wait next
      | advance ms => exact .answer (.advance ms)
      | dispatch m => exact .expand (.dispatch m)
      | emit event arguments options =>
        cases h : env.dispatcher.events.check "emit" with
        | error f =>
          simp only [Task.step, h]
          exact .answer (.emitNowhere event arguments options f h)
        | ok u =>
          simp only [Task.step, h]
          exact .expand (.emit event arguments options h)
      | edit change => exact .answer (.edit change)
      | resetCooldowns => exact .answer .reset
      | note n => exact .answer (.note n)
    | claimRun c => exact .answer (.claimRun c)
    | finish name => exact .answer (.finish name)
    | record c => exact .answer (.record c)
    | seconds => exact .answer .seconds
    | listeners event => exact .answer (.listeners event)
    | middlewareAt index => exact .answer (.middlewareAt index)
    | sweep phase event index context => exact .expand (.sweep phase event index context)
    | notify listeners arguments options => exact .spawn listeners arguments options next
    | count number command outcome => exact .answer (.count number command outcome)

end ChatCommands
