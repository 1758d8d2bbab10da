import Mathlib
import ChatCommands.Proofs.DispatchCourse
import ChatCommands.Proofs.GuardVerdict

set_option autoImplicit false

/-!
# Dispatches of guarded commands

A dispatch that has got as far as the guard runs the command once if the guard
grants, and else not at all. To tell how often a command is run, a host is made
to count it: the counting host does what the host does, and besides each run of a
command adds one to a number that nothing else changes.
-/
namespace ChatCommands
variable {σ τ : Type}

/-- The effect on a state that has a number beside it. -/
def Effect.counted : Effect σ → Effect (σ × Nat)
  | .host f => .host fun s => (f s.1, s.2)
  | .wait => .wait
  | .advance ms => .advance ms
  | .dispatch m => .dispatch m
  | .emit event arguments options => .emit event arguments options
  | .edit change => .edit change
  | .resetCooldowns => .resetCooldowns
  | .note n => .note n

def Effect.answerOf : (e : Effect σ) → e.counted.Answer → e.Answer
  | .host _, s => s.1
  | .wait, x | .advance _, x | .dispatch _, x | .emit .., x | .edit _, x | .resetCooldowns, x
  | .note _, x => x

def Script.counted : Script σ τ → Script (σ × Nat) τ
  | .done r => .done r
  | .ask (.effect e) next => .ask (.effect e.counted) fun x => counted (next (e.answerOf x))
  | .ask (.update f) next => .ask (.update f) fun x => counted (next x)
  | .ask (.reply text) next => .ask (.reply text) fun x => counted (next x)

section
variable {t u : List (Exchange (engineInterface (σ × Nat)))}

end

namespace Dispatcher
variable {host : Host σ} {m : Message} {command : Command}

/-- The trace gets past the admission and the binding of the arguments. -/
def Passes (d : Dispatcher) (host : Host σ) (m : Message) (command : Command)
    (t : List (Exchange (engineInterface σ))) (arguments : Assoc Value) : Prop :=
  ∃ i u v, Invocation.read? d.options.prelude m.content = some i ∧
    d.registry.lookup? i.keyword = some command ∧
    t = Guard.noted (.commandCalled d.options.prelude i.keyword command.name) ::
      ⟨.claimRun command.definition, true⟩ :: (u ++ v) ∧
    (Argument.bind host d.parsers (some m) command.definition.slots i.tokens).Traces u (.ok arguments)

/-- How a dispatch ends after the run, in the event that reports the outcome. -/
inductive Reported : Except Fault Outcome → List (Exchange (engineInterface σ)) →
    Except Fault Outcome → Prop where
  | raised (f : Fault) : Reported (.error f) [] (.error f)
  | emitted (o : Outcome) : Reported (.ok o)
      [⟨.effect (.emit finishedEvent [.outcome o] []), .ok ()⟩] (.ok o)
  | broken (o : Outcome) (f : Fault) : Reported (.ok o)
      [⟨.effect (.emit finishedEvent [.outcome o] []), .error f⟩] (.error f)

theorem traces_invoke {d : Dispatcher} {tokens : List String}
    {t : List (Exchange (engineInterface σ))} {r : Except Fault Outcome}
    (trace : (d.invoke host m command tokens).Traces (⟨.claimRun command.definition, true⟩ :: t) r) :
    ∃ u, t = u ++ [⟨.finish command.name, ()⟩] ∧ (d.attempt host m command tokens).Traces u r := by
  obtain ⟨b, t', same, trace⟩ := Program.traces_ask_iff.1 trace
  cases same
  change Program.Traces ((d.attempt host m command tokens).bind fun o =>
    (Engine.request (.finish command.name)).bind fun _ => .done o) t r at trace
  obtain ⟨u, v, a, rfl, attempted, finishing⟩ := Program.traces_bind_iff.1 trace
  obtain ⟨x, w, rfl, ended⟩ := Program.traces_ask_iff.1 finishing
  obtain ⟨rfl, rfl⟩ := Program.traces_done_iff.1 ended
  exact ⟨u, rfl, attempted⟩

/-- The trace of a dispatch that is admitted: the binding, what follows it, and the event at the end. -/
theorem traces_of_claimed {d : Dispatcher} {i : Invocation} {w : List (Exchange (engineInterface σ))}
    {n : Exchange (engineInterface σ)} {r : Except Fault Outcome}
    (read : Invocation.read? d.options.prelude m.content = some i)
    (found : d.registry.lookup? i.keyword = some command)
    (trace : (d.process host m).Traces (n :: ⟨.claimRun command.definition, true⟩ :: w) r) :
    ∃ u v e x r', w = u ++ v ++ ⟨.finish command.name, ()⟩ :: e ∧
      (Argument.bind host d.parsers (some m) command.definition.slots i.tokens).Traces u x ∧
      (match x with
        | .ok arguments => (guardAndRun host m command arguments).Traces v r'
        | .error error => (d.refuse host m command error).Traces v r') ∧ Reported r' e r := by
  unfold process at trace
  simp only [read, found] at trace
  obtain ⟨_, t, same, trace⟩ := Program.traces_ask_iff.1 trace
  cases same
  change Program.Traces (Program.bind (d.invoke host m command i.tokens) _) _ _ at trace
  obtain ⟨t₁, e, r', same, invoked, reported⟩ := Program.traces_bind_iff.1 trace
  rcases t₁ with _ | ⟨claim, t₁⟩
  · obtain ⟨x, v, empty, -⟩ := Program.traces_ask_iff.1 invoked
    cases empty
  · rw [List.cons_append, List.cons.injEq] at same
    obtain ⟨rfl, rfl⟩ := same
    obtain ⟨t₁, rfl, attempted⟩ := traces_invoke invoked
    obtain ⟨u, v, x, rfl, bound, followed⟩ := Program.traces_bind_iff.1 attempted
    refine ⟨u, v, e, x, r', by simp, bound, by cases x <;> exact followed, ?_⟩
    cases r' with
    | error f =>
      obtain ⟨rfl, rfl⟩ := Program.traces_done_iff.1 reported
      exact .raised f
    | ok o =>
      obtain ⟨x, v, rfl, ended⟩ := Program.traces_ask_iff.1 reported
      cases x with
      | error f =>
        obtain ⟨rfl, rfl⟩ := Program.traces_done_iff.1 ended
        exact .broken o f
      | ok u =>
        obtain ⟨rfl, rfl⟩ := Program.traces_done_iff.1 ended
        exact .emitted o

theorem Reported.ofTrace {r r' : Except Fault Outcome} {e : List (Exchange (engineInterface σ))}
    (reported : Reported r' e r) : RunEvent.ofTrace e = [] := by
  cases reported <;> rfl

end Dispatcher
end ChatCommands
