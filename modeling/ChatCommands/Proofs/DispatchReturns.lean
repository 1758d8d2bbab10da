import Mathlib
import ChatCommands.Proofs.OrdinaryEvents
import ChatCommands.Proofs.RegistryChecks
import ChatCommands.Proofs.StrandedDispatch
import ChatCommands.Proofs.TurnsEnd

set_option autoImplicit false

/-!
# Dispatches return

If callbacks raise ordinary faults only, a dispatch returns an outcome, with two
exceptions. A dispatcher with a registry that was made beforehand may come to a
tag for which its own parsers have none; and the event that reports the outcome
fails if a middleware has put something other than a list in the place of the
faults of listeners. The first is excluded for all other dispatchers by the check
of the registry, and no other fault gets out of a dispatch.
-/
namespace ChatCommands
open Engine
variable {σ : Type} {keeps : Prop} {host : Host σ}

namespace Dispatcher

/-- The answers of a command's callbacks that always answer alike are ordinary. -/
def Fixed (command : Command) : Prop :=
  ∀ x, command.execute = some (.fixed x) ∨ command.guard = some (.fixed x) → Ordinary x

/-- What a dispatcher works with can be used. -/
structure Equipped (d : Dispatcher) : Prop where
  clock : d.clock.fault? = none
  events : ∀ member, d.events.check member = .ok ()
  parsers : ∃ t : ParserTable, d.parsers = t
  fixed : ∀ command ∈ d.registry.commands, Fixed command

/-- The faults that get out of a dispatch. -/
def Escapes (d : Dispatcher) (keeps : Prop) (f : Fault) : Prop :=
  (∃ tag, f = .unknownTag tag ∧ d.Asks tag) ∨ Unlisted keeps f

theorem Escapes.isOrdinary {d : Dispatcher} {f : Fault} (h : d.Escapes keeps f) :
    f.isOrdinary = true := by
  rcases h with ⟨tag, rfl, -⟩ | unlisted
  · rfl
  · exact unlisted.isOrdinary

theorem usually_replyWithError (ordinary : host.Ordinary) (d : Dispatcher) (m : Message)
    (e : BindingError) : (d.replyWithError host m e).Usually keeps fun x => x = .ok () := by
  unfold replyWithError
  extract_lets possible
  split
  · refine (Message.usually_answer ordinary m _).bind ?_
    rintro (f | v) hr
    · simp only [(ordinary_error f).1 hr, if_true]
      exact .noted _ (.done rfl)
    · exact .done rfl
  · exact .done rfl

theorem usually_callExecute (ordinary : host.Ordinary) (m : Message) (c : Definition)
    {execute : Option Callback} (arguments : Assoc Value)
    (fixed : ∀ x, execute = some (.fixed x) → Ordinary x) :
    (callExecute host m c execute arguments).Usually keeps Ordinary := by
  unfold callExecute
  split
  · exact .done ((ordinary_error _).2 rfl)
  · exact .done ((ordinary_error _).2 rfl)
  · exact .done (fixed _ rfl)
  · exact (usually_perform (Message.usually_answer ordinary m) (ordinary.execute _ m c _)).bind
      fun r hr => .done hr

theorem usually_run (ordinary : host.Ordinary) (m : Message) {command : Command}
    (fixed : Fixed command) (arguments : Assoc Value) :
    (run host m command arguments).Usually keeps fun x => ∃ o, x = .ok o := by
  unfold run
  refine (usually_callExecute ordinary m _ arguments fun x h => fixed x (.inl h)).bind ?_
  rintro (f | v) hr
  · simp only [(ordinary_error f).1 hr, if_true]
    exact .noted _ (.done ⟨_, rfl⟩)
  · refine .asked trivial ?_
    rintro _ rfl
    exact .done ⟨_, rfl⟩

theorem usually_guardAndRun (ordinary : host.Ordinary) (m : Message) {command : Command}
    (fixed : Fixed command) (arguments : Assoc Value) :
    (guardAndRun host m command arguments).Usually keeps fun x => ∃ o, x = .ok o := by
  unfold guardAndRun
  split
  case h_1 => exact usually_run ordinary m fixed arguments
  case h_2 guard hg =>
    refine (Guard.usually_evaluate ordinary _ arguments _ fun x h => fixed x (.inr (h ▸ hg))).bind ?_
    rintro ⟨_, arguments⟩ ⟨verdict, rfl⟩
    cases verdict with
    | granted => exact usually_run ordinary m fixed arguments
    | denied reason => exact .done ⟨_, rfl⟩

theorem usually_refuse (ordinary : host.Ordinary) (d : Dispatcher) (m : Message) (command : Command)
    (e : BindingError) : (d.refuse host m command e).Usually keeps fun x =>
      ∀ f, x = .error f → e = .escaped f := by
  cases e with
  | escaped f =>
    refine .done ?_
    rintro _ ⟨⟩
    rfl
  | missing slot | invalid slot token cause =>
    refine (usually_replyWithError ordinary d m _).bind ?_
    rintro _ rfl
    exact .done nofun

theorem usually_attempt (ordinary : host.Ordinary) {d : Dispatcher} {t : ParserTable}
    (table : d.parsers = t) (m : Message) {command : Command} (fixed : Fixed command)
    {tokens : List String} (words : ∀ token ∈ tokens, Text.IsWord token.toList) :
    (d.attempt host m command tokens).Usually keeps fun x => ∀ f, x = .error f →
      ∃ tag, f = .unknownTag tag ∧ t.Strands tag command.definition.slots := by
  unfold attempt
  rw [table]
  refine (Argument.usually_bindFrom ordinary t (some m) _ [] words).bind ?_
  rintro (e | arguments) hr
  · refine (usually_refuse ordinary d m command e).mono ?_
    intro x hx f hf
    exact hr f (congrArg Except.error (hx f hf))
  · refine (usually_guardAndRun ordinary m fixed arguments).mono ?_
    rintro _ ⟨o, rfl⟩
    exact nofun

theorem usually_process (ordinary : host.Ordinary) {d : Dispatcher} (equipped : d.Equipped)
    (m : Message) :
    (d.process host m).Usually keeps fun x => ∀ f, x = .error f → d.Escapes keeps f := by
  obtain ⟨t, table⟩ := equipped.parsers
  unfold process
  split
  case h_1 => exact .done nofun
  case h_2 i read =>
    obtain ⟨keyword, tokens⟩ := Invocation.isWord_of_read? read
    split
    case h_1 => exact .done nofun
    case h_2 command found =>
      have listed : command ∈ d.registry.commands := List.mem_of_find?_eq_some found
      have invoked : (d.invoke host m command i.tokens).Usually keeps fun x => ∀ f, x = .error f →
          ∃ tag, f = .unknownTag tag ∧ d.Asks tag := by
        refine .asked trivial ?_
        intro admitted _
        cases admitted with
        | false => exact .done nofun
        | true =>
          refine (usually_attempt ordinary table m (equipped.fixed command listed) tokens).bind
            fun x hx => .asked trivial fun _ _ => .done fun f hf => ?_
          obtain ⟨tag, rfl, strands⟩ := hx f hf
          exact ⟨tag, rfl, t, i.keyword, command, table, keyword, found, strands⟩
      refine .noted _ (invoked.bind ?_)
      rintro (f | o) hx
      · refine .done ?_
        rintro _ ⟨⟩
        exact .inl (hx f rfl)
      · refine .asked trivial ?_
        rintro (f | u) hr
        · refine .done ?_
          rintro _ ⟨⟩
          exact .inr (hr f rfl)
        · exact .done nofun

/-- What the threads of a world end with: an outcome if they were started for a message. -/
def Concluded (d : Dispatcher) (keeps : Prop) (forMessage : Bool) (finish : Finish) : Prop :=
  if forMessage then ∃ r, finish = .outcome r ∧ ∀ f, r = .error f → d.Escapes keeps f
  else ∃ r, finish = .value r

theorem usual_kept {env : Surroundings σ} (equipped : env.dispatcher.Equipped)
    (ordinary : env.host.Ordinary) (kept : keeps → env.host.KeepsErrors) :
    (usual σ keeps).Kept env false (env.dispatcher.Concluded keeps) fun _ => True where
  answered := by
    intro b s s' r x answered _
    cases answered with
    | emitNowhere event arguments options f h => simp [equipped.events] at h
    | edit change =>
      simp only [usual, Effect.Ordinary, Shared.tryEdit, equipped.events]
      exact ordinary_ok ()
    | record c => simp [usual, Shared.record, equipped.clock]
    | _ => trivial
  expanded := by
    intro b r p expands allowed
    refine Program.Follows.still ?_ fun _ _ _ => rfl
    cases expands with
    | dispatch m =>
      refine (usually_process ordinary equipped m b).mono ?_
      intro _ x hx f hf
      exact (hx f hf).isOrdinary
    | emit event arguments options h =>
      refine (Event.usually_emit event arguments options b).mono ?_
      intro _ x hx
      cases options with
      | nil => exact hx.2 rfl
      | cons o options => exact hx.1
    | sweep phase event index context =>
      exact Event.usually_sweepFrom ordinary kept phase event index allowed b
  expandStill _ _ := rfl
  waitStill _ _ := rfl
  notifyStill _ _ _ _ _ := rfl
  listened := by
    intro b listeners arguments options _ p hp
    obtain ⟨h, -, rfl⟩ := List.mem_map.1 hp
    refine (Program.Follows.still (usually_runScript (ordinary.listener h arguments options) false)
      fun _ _ _ => rfl).mono ?_
    rintro _ x ⟨-, rfl⟩
    exact ⟨x, rfl⟩
  heard _ _ := ⟨_, rfl⟩
  returned _ := trivial
  silent := trivial

end Dispatcher

def Act.Ordinary : Act σ → Prop
  | .perform script => Script.Ordinary script
  | .answer _ x => ChatCommands.Ordinary x
  | .cancel _ => False
  | _ => True

def Finish.fault? : Finish → Option Fault
  | .outcome (.error f) => some f
  | _ => none

namespace World
variable {env : Surroundings σ} {first w : World σ} {h : List Entry}

theorem Reaches.concluded (equipped : env.dispatcher.Equipped) (ordinary : env.host.Ordinary)
    (kept : keeps → env.host.KeepsErrors) (start : first.threads = [])
    (run : Reaches env Act.Ordinary first h w) :
    w.Follows (usual σ keeps) false (env.dispatcher.Concluded keeps) fun i =>
      decide (.received i ∈ h) := by
  have keeping := Dispatcher.usual_kept equipped ordinary kept
  induction run with
  | start => exact ⟨fun i st hs => by simp [state?_eq, start] at hs, fun _ _ => by simp⟩
  | @tick h w run ih =>
    rcases ih.tick keeping with ⟨G, follows, ⟨⟨-, -, rfl⟩ | ⟨i, r, x, -, -, -, -, rfl⟩⟩⟩
    · exact follows.of_states fun j => by simp [nextEntry_ne_received]
    · apply follows.of_states
      intro j
      rw [show (usual σ keeps).next (decide (.received i ∈ h)) r x = decide (.received i ∈ h) from rfl,
        Function.update_eq_self i fun j => decide (Entry.received j ∈ h)]
      simp [nextEntry_ne_received]
  | @act h w run a ha ih =>
    cases a with
    | receive m =>
      have usually : (env.dispatcher.process env.host m).Usually keeps _ :=
        Dispatcher.usually_process ordinary equipped m
      have dispatched := Program.Follows.still (usually true) fun _ _ _ => rfl
      have started := ih.start (dispatched.bind (f := fun r => .done (.outcome r))
        (R := env.dispatcher.Concluded keeps) fun b r hr => hr.2 ▸ ⟨r, rfl, hr.1⟩)
      apply started.of_states
      intro i
      by_cases hi : i = w.threads.length <;> simp [entryOfAct, hi]
    | perform script =>
      have usually : (runScript script).Usually keeps _ := usually_runScript ha
      have performed := Program.Follows.still (usually false) fun _ _ _ => rfl
      have started := ih.start (performed.bind (f := fun r => .done (.value r))
        (R := env.dispatcher.Concluded keeps) fun b r hr => hr.2 ▸ ⟨r, rfl⟩)
      apply started.of_states
      intro i
      rw [← ih.unborn _ le_rfl,
        Function.update_eq_self w.threads.length fun i => decide (Entry.received i ∈ h)]
      rfl
    | answer i x => exact ih.answer keeping.toSteady fun _ _ => ha
    | cancel root => exact ha.elim
    | arrange turns => exact ih.arrange turns
    | adjust change => exact ih.adjust change

/-- A message that a thread was started for has been answered with an outcome, or the thread goes on. -/
structure Returns (w : World σ) (i : Nat) : Prop where
  answered : ∀ r, w.finish? i = some r → ∃ o, r = .outcome (.ok o)
  goes_on : (∃ r, w.finish? i = some r) ∨ w.HasTurn i ∨ ∃ waiting, w.waitingFor? i = some waiting

end World

namespace Dispatcher

def diceParsers : ParserTable := [("Dice", .text)]

end Dispatcher
end ChatCommands
