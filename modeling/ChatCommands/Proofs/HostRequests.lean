import Mathlib
import ChatCommands.Proofs.WorldDiscipline

set_option autoImplicit false

/-!
# Requests on behalf of callbacks

The binding of arguments, the evaluation of a guard, replies and calls of
middleware make few requests of their own: besides what callbacks ask for, they
note what happens, look at the host's lists and the time of day, and count. So if
all callbacks keep to effects of some kind, then so does the library there. In
particular the requests that concern the runs of commands are left to the
dispatch of a message, and those that concern an event to its emission.
-/
namespace ChatCommands
variable {σ τ α β : Type}

/-- An effect of this kind, or one of the few other requests made on behalf of callbacks. -/
def EngineRequest.Within (P : Effect σ → Prop) : EngineRequest σ → Prop
  | .effect e => P e
  | .seconds | .count .. => True
  | _ => False

/-- An effect of this kind and nothing else. -/
def EngineRequest.Effects (P : Effect σ → Prop) : EngineRequest σ → Prop
  | .effect e => P e
  | _ => False

/-- What a call of a middleware asks for: effects of this kind, the time of day, and to count in its own
tally. -/
def EngineRequest.Serves (P : Effect σ → Prop) (m : Middleware) : EngineRequest σ → Prop
  | .effect e => P e
  | .seconds => True
  | .count number .. => m = .tally number
  | _ => False

def HookRequest.Within (P : Effect σ → Prop) : HookRequest σ τ → Prop
  | .effect e => P e
  | _ => True

def Engine.Within (P : Effect σ → Prop) (p : Engine σ α) : Prop :=
  Program.Uses (fun r : EngineRequest σ => r.Within P) p

def Engine.Effects (P : Effect σ → Prop) (p : Engine σ α) : Prop :=
  Program.Uses (fun r : EngineRequest σ => r.Effects P) p

def Script.Within (P : Effect σ → Prop) (s : Script σ τ) : Prop :=
  Program.Uses (fun r : HookRequest σ τ => r.Within P) s

/-- The callbacks that do not run commands, and the library on their behalf, have effects of this
kind only. -/
structure Host.Within (host : Host σ) (P : Effect σ → Prop) : Prop where
  notes : ∀ n, P (.note n)
  looks : P (.host id)
  grows : ∀ number v, P (.host (host.extend number v))
  guard : ∀ h m, Script.Within P (host.guard h m)
  reply : ∀ h text, Script.Within P (host.reply h text)
  listener : ∀ h arguments options, Script.Within P (host.listener h arguments options)
  middleware : ∀ h phase, Script.Within P (host.middleware h phase)
  parse : ∀ h token slot m, Script.Within P (host.parse h token slot m)
  resolve : ∀ h id m, Script.Within P (host.resolve h id m)

/-- The request leaves the runs of commands alone. -/
def EngineRequest.Untracked : EngineRequest σ → Prop
  | .claimRun _ | .finish _ | .record _ => False
  | _ => True

abbrev Untracked (p : Engine σ α) : Prop := Program.Uses EngineRequest.Untracked p

/-- The request leaves the runs of commands alone, and what callbacks ask for is of this kind. -/
def EngineRequest.Spares (P : Effect σ → Prop) : EngineRequest σ → Prop
  | .effect e => P e
  | .claimRun _ | .finish _ | .record _ => False
  | _ => True

theorem EngineRequest.Spares.untracked {P : Effect σ → Prop} {r : EngineRequest σ} (h : r.Spares P) :
    r.Untracked := by
  cases r with
  | claimRun c | finish name | record c => exact h.elim
  | _ => trivial

theorem Script.within_all (s : Script σ τ) : s.Within fun _ => True := by
  refine Program.uses_of_forall (fun r => ?_) s
  cases r <;> trivial

theorem Host.within_all (host : Host σ) : host.Within fun _ => True where
  notes _ := trivial
  looks := trivial
  grows _ _ := trivial
  guard _ _ := Script.within_all _
  reply _ _ := Script.within_all _
  listener _ _ _ := Script.within_all _
  middleware _ _ := Script.within_all _
  parse _ _ _ _ := Script.within_all _
  resolve _ _ _ := Script.within_all _

variable {P : Effect σ → Prop} {host : Host σ}

theorem Script.Within.mono {Q : Effect σ → Prop} {s : Script σ τ} (h : s.Within P)
    (le : ∀ e, P e → Q e) : s.Within Q := by
  apply Program.Uses.mono h
  intro r hr
  cases r with
  | effect e => exact le e hr
  | _ => trivial

theorem Host.Within.mono {Q : Effect σ → Prop} (h : host.Within P) (le : ∀ e, P e → Q e) :
    host.Within Q where
  notes n := le _ (h.notes n)
  looks := le _ h.looks
  grows number v := le _ (h.grows number v)
  guard g m := (h.guard g m).mono le
  reply k text := (h.reply k text).mono le
  listener k arguments options := (h.listener k arguments options).mono le
  middleware k phase := (h.middleware k phase).mono le
  parse k token slot m := (h.parse k token slot m).mono le
  resolve k id m := (h.resolve k id m).mono le

namespace Engine

theorem effects_effect {e : Effect σ} (h : P e) : (request (.effect e)).Effects P := ⟨h, fun _ => trivial⟩

theorem effects_note (hP : host.Within P) (n : Notice) : (note n : Engine σ Unit).Effects P :=
  effects_effect (hP.notes n)

theorem Effects.bind {p : Engine σ α} {f : α → Engine σ β} (hp : p.Effects P)
    (hf : ∀ a, Engine.Effects P (f a)) : Engine.Effects P (p.bind f) := Program.Uses.bind hp hf

theorem Effects.within {p : Engine σ α} (h : p.Effects P) : p.Within P := by
  apply Program.Uses.mono h
  intro r hr
  cases r with
  | effect e => exact hr
  | _ => exact hr.elim

theorem within_note (hP : host.Within P) (n : Notice) : (note n : Engine σ Unit).Within P :=
  (effects_note hP n).within

theorem Within.bind {p : Engine σ α} {f : α → Engine σ β} (hp : p.Within P)
    (hf : ∀ a, Engine.Within P (f a)) : Engine.Within P (p.bind f) := Program.Uses.bind hp hf

theorem Within.spares {p : Engine σ α} (h : p.Within P) :
    Program.Uses (fun r : EngineRequest σ => r.Spares P) p := by
  apply Program.Uses.mono h
  intro r hr
  cases r with
  | effect e => exact hr
  | seconds | count => trivial
  | _ => exact hr.elim

theorem Within.untracked {p : Engine σ α} (h : p.Within P) : Untracked p :=
  h.spares.mono fun _ => EngineRequest.Spares.untracked

theorem effects_perform {send : String → Engine σ (Except Fault Value)}
    (hs : ∀ text, (send text).Effects P) {script : Script σ τ} (h : script.Within P) (t : τ) :
    (perform send script t).Effects P := by
  induction script generalizing t with
  | done r => trivial
  | ask r next ih =>
    obtain ⟨allowed, rest⟩ := h
    cases r with
    | effect e => exact ⟨allowed, fun a => ih a (rest a) t⟩
    | update f => exact ih _ (rest _) _
    | reply text => exact (hs text).bind fun a => ih a (rest a) t

theorem effects_noReply (called text : String) :
    (noReply called text : Engine σ (Except Fault Value)).Effects P := trivial

theorem effects_runScript {script : Script σ Unit} (h : script.Within P) :
    (runScript script).Effects P :=
  (effects_perform (effects_noReply _) h ()).bind fun _ => trivial

theorem within_runScript {script : Script σ Unit} (h : script.Within P) :
    (runScript script).Within P := (effects_runScript h).within

end Engine

open Engine

theorem Message.effects_answer (hP : host.Within P) (m : Message) (text : String) :
    (m.answer host text).Effects P := by
  unfold Message.answer
  cases m.reply with
  | missing type => trivial
  | closed => trivial
  | hook h => exact effects_runScript (hP.reply h text)
  | oneWay h => exact (effects_runScript (hP.reply h text)).bind fun _ => trivial

theorem ArgumentParser.effects_run (hP : host.Within P) (m : Option Message) (slot : Slot)
    (token : String) (p : ArgumentParser) : (p.run host m slot token).Effects P := by
  cases p with
  | text | integer | number => trivial
  | date strict patterns =>
    simp only [ArgumentParser.run]
    split
    · trivial
    · split
      · trivial
      · exact (effects_note hP _).bind fun _ => trivial
  | member resolver =>
    simp only [ArgumentParser.run]
    split
    · trivial
    · trivial
    · trivial
    · refine (effects_runScript (hP.resolve _ _ m)).bind ?_
      intro r
      split <;> trivial
  | host label h => exact effects_runScript (hP.parse h token slot m)

namespace Argument

theorem effects_bindFrom (hP : host.Within P) (parsers : ParserSource) (m : Option Message)
    (slots : List Slot) (bound : Assoc Value) (tokens : List String) :
    (bindFrom host parsers m bound slots tokens).Effects P := by
  induction slots generalizing bound tokens with
  | nil => trivial
  | cons slot slots ih =>
    cases tokens with
    | nil =>
      simp only [bindFrom]
      split <;> trivial
    | cons token tokens =>
      simp only [bindFrom]
      split
      · exact ih _ _
      · split
        · trivial
        · refine (ArgumentParser.effects_run hP m slot token _).bind ?_
          intro r
          split
          · exact ih _ _
          · split
            · trivial
            · exact (effects_note hP _).bind fun _ => trivial

theorem within_bindFrom (hP : host.Within P) (parsers : ParserSource) (m : Option Message)
    (slots : List Slot) (bound : Assoc Value) (tokens : List String) :
    (bindFrom host parsers m bound slots tokens).Within P :=
  (effects_bindFrom hP parsers m slots bound tokens).within

end Argument

namespace Guard

theorem effects_conclude (hP : host.Within P) (command : String) (returned : Except Fault Value)
    (ballot : Ballot) :
    (conclude command returned ballot : Engine σ (Except Fault Verdict)).Effects P := by
  unfold conclude
  split
  · split
    · exact (effects_note hP _).bind fun _ => trivial
    · trivial
  · split
    · exact (effects_note hP _).bind fun _ => trivial
    · trivial
    · exact (effects_note hP _).bind fun _ => trivial

theorem effects_evaluate (hP : host.Within P) (command : String) (guard : Callback)
    (arguments : Assoc Value) (m : Option Message) :
    (evaluate host command guard arguments m).Effects P := by
  cases guard with
  | value v => exact (effects_conclude hP _ _ _).bind fun _ => trivial
  | fixed answer => exact (effects_conclude hP _ _ _).bind fun _ => trivial
  | hook h =>
    exact (effects_perform (effects_noReply _) (hP.guard h m) _).bind fun r =>
      (effects_conclude hP _ _ _).bind fun _ => trivial

theorem within_evaluate (hP : host.Within P) (command : String) (guard : Callback)
    (arguments : Assoc Value) (m : Option Message) :
    (evaluate host command guard arguments m).Within P :=
  (effects_evaluate hP command guard arguments m).within

end Guard

namespace Middleware

/-- The program asks only for what a call of this middleware does. -/
abbrev Serves (P : Effect σ → Prop) (m : Middleware) (p : Engine σ α) : Prop :=
  Program.Uses (fun r : EngineRequest σ => r.Serves P m) p

theorem Serves.of_effects {m : Middleware} {p : Engine σ α} (h : p.Effects P) : m.Serves P p := by
  apply Program.Uses.mono h
  intro r hr
  cases r with
  | effect e => exact hr
  | _ => exact hr.elim

theorem effects_noteFaults (hP : host.Within P) (event : Value) (vs : List Value) :
    (noteFaults event vs : Engine σ Unit).Effects P := by
  induction vs with
  | nil => trivial
  | cons v vs ih => exact (effects_note hP _).bind fun _ => ih

theorem serves_logAfter (hP : host.Within P) (number : Nat) (context : EventContext) :
    (outcomeLog number).Serves P (logAfter context) := by
  unfold logAfter
  split
  · trivial
  · split
    · trivial
    · refine Program.Uses.bind (p := request .seconds) ⟨trivial, fun _ => trivial⟩ fun now => ?_
      split
      · trivial
      · exact (Serves.of_effects (effects_note hP _)).bind fun _ => trivial

theorem effects_faultsAfter (hP : host.Within P) (context : EventContext) :
    (faultsAfter host context).Effects P := by
  unfold faultsAfter
  split
  · trivial
  · extract_lets rest
    have effects_rest : ∀ u, (rest u).Effects P := by
      intro _
      apply (effects_effect hP.looks).bind
      intro s
      split
      · trivial
      · exact (effects_noteFaults hP _ _).bind fun _ => trivial
    split
    · exact (effects_note hP _).bind fun _ => (effects_note hP _).bind effects_rest
    · exact effects_rest ()

theorem serves_countBefore (hP : host.Within P) (number : Nat) (context : EventContext) :
    (tally number).Serves P (countBefore number context) := by
  unfold countBefore
  split
  · trivial
  · split
    · trivial
    · refine ⟨rfl, fun total => ?_⟩
      exact (Serves.of_effects (effects_note hP _)).bind fun _ => trivial
  · trivial

theorem serves_call (hP : host.Within P) (phase : Phase) (context : EventContext) (m : Middleware) :
    m.Serves P (m.call host phase context) := by
  cases m with
  | hook h => exact .of_effects (effects_perform (effects_noReply _) (hP.middleware h phase) _)
  | outcomeLog number =>
    cases phase with
    | before => exact ⟨trivial, fun now => (Serves.of_effects (effects_note hP _)).bind fun _ => trivial⟩
    | after => exact serves_logAfter hP number context
  | faultLog number =>
    cases phase with
    | before => trivial
    | after => exact .of_effects ((effects_faultsAfter hP context).bind fun _ => trivial)
  | tally number =>
    cases phase with
    | before => exact (serves_countBefore hP number context).bind fun _ => trivial
    | after => trivial

theorem within_call (hP : host.Within P) (phase : Phase) (context : EventContext) (m : Middleware) :
    (m.call host phase context).Within P := by
  apply (serves_call hP phase context m).mono
  intro r hr
  cases r with
  | effect e => exact hr
  | seconds | count => trivial
  | _ => exact hr.elim

end Middleware

namespace Dispatcher

theorem effects_replyWithError (hP : host.Within P) (d : Dispatcher) (m : Message)
    (e : BindingError) : (d.replyWithError host m e).Effects P := by
  unfold replyWithError
  extract_lets possible
  split
  · refine (Message.effects_answer hP m _).bind ?_
    intro r
    split
    · trivial
    · split
      · exact (effects_note hP _).bind fun _ => trivial
      · trivial
  · trivial

theorem within_replyWithError (hP : host.Within P) (d : Dispatcher) (m : Message)
    (e : BindingError) : (d.replyWithError host m e).Within P := (effects_replyWithError hP d m e).within

theorem effects_callExecute (hP : host.Within P) (m : Message) (c : Definition)
    (hc : ∀ h, Script.Within P (host.execute h m c)) (execute : Option Callback)
    (arguments : Assoc Value) : (callExecute host m c execute arguments).Effects P := by
  unfold callExecute
  split
  · trivial
  · trivial
  · trivial
  · exact (effects_perform (Message.effects_answer hP m) (hc _) _).bind fun _ => trivial

theorem within_callExecute (hP : host.Within P) (m : Message) (c : Definition)
    (hc : ∀ h, Script.Within P (host.execute h m c)) (execute : Option Callback)
    (arguments : Assoc Value) : (callExecute host m c execute arguments).Within P :=
  (effects_callExecute hP m c hc execute arguments).within

end Dispatcher

namespace Event

theorem effects_gatherFaults (hP : host.Within P) (event : String) (context : EventContext)
    (results : List (Hook × Except Fault Value)) :
    (gatherFaults host event context results).Effects P := by
  induction results generalizing context with
  | nil => trivial
  | cons e rest ih =>
    simp only [gatherFaults]
    split
    · exact ih _
    · refine (effects_note hP _).bind ?_
      intro _
      split
      · trivial
      · exact ih _
      · refine Effects.bind ?_ fun _ => ih _
        exact (effects_effect (hP.grows _ _)).bind fun _ => trivial

theorem within_gatherFaults (hP : host.Within P) (event : String) (context : EventContext)
    (results : List (Hook × Except Fault Value)) :
    (gatherFaults host event context results).Within P :=
  (effects_gatherFaults hP event context results).within

theorem untracked_request {r : EngineRequest σ} (h : r.Untracked) :
    Untracked (Engine.request r) := ⟨h, fun _ => trivial⟩

theorem spares_request {r : EngineRequest σ} (h : r.Spares P) :
    Program.Uses (fun r : EngineRequest σ => r.Spares P) (Engine.request r) := ⟨h, fun _ => trivial⟩

theorem spares_sweepFrom (hP : host.Within P) (phase : Phase) (event : String) (index : Nat)
    (context : EventContext) :
    Program.Uses (fun r : EngineRequest σ => r.Spares P) (sweepFrom host phase event index context) := by
  refine (spares_request (by trivial)).bind ?_
  intro m
  split
  · trivial
  · refine (Middleware.within_call hP phase context _).spares.bind ?_
    intro r
    rcases r with ⟨f | v, context⟩
    · dsimp only
      split
      · exact (within_note hP _).spares.bind fun _ => spares_request (by trivial)
      · trivial
    · dsimp only
      split
      · exact (within_note hP _).spares.bind fun _ => trivial
      · exact spares_request (by trivial)

/-- An emission makes requests of its own, but leaves the runs of commands alone. -/
theorem spares_emit (hP : host.Within P) (event : String) (arguments : List Value)
    (options : Assoc Value) :
    Program.Uses (fun r : EngineRequest σ => r.Spares P) (emit host event arguments options) := by
  unfold emit
  split
  · trivial
  · refine (spares_request (by trivial)).bind fun listeners =>
      (spares_request (by trivial)).bind fun swept => ?_
    split
    · trivial
    · trivial
    · refine Program.Uses.bind ?_ fun results => ?_
      · unfold notify
        split
        · trivial
        · exact spares_request (by trivial)
      · split
        · trivial
        · refine (within_gatherFaults hP event _ _).spares.bind ?_
          intro gathered
          split
          · trivial
          · refine (spares_request (by trivial)).bind ?_
            intro _
            split <;> trivial

theorem untracked_sweepFrom (host : Host σ) (phase : Phase) (event : String) (index : Nat)
    (context : EventContext) : Untracked (sweepFrom host phase event index context) :=
  (spares_sweepFrom host.within_all phase event index context).mono fun _ => EngineRequest.Spares.untracked

theorem untracked_emit (host : Host σ) (event : String) (arguments : List Value)
    (options : Assoc Value) : Untracked (emit host event arguments options) :=
  (spares_emit host.within_all event arguments options).mono fun _ => EngineRequest.Spares.untracked

end Event
end ChatCommands
