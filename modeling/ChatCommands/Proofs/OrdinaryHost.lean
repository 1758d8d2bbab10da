import Mathlib
import ChatCommands.Proofs.WorldDiscipline

set_option autoImplicit false

/-!
# Hosts that raise ordinary faults only

A callback is ordinary if it ends with a value or an ordinary fault, as long as
nothing fatal comes back from what it asks for. All that the library does on
behalf of ordinary callbacks then ends without a fatal fault as well, and an
event reaches its end. One thing more is needed for that: the faults of listeners
are gathered in a list in the context of the event, which is open to middleware,
and nothing can be added to what a middleware has put in the place of the list.
-/
namespace ChatCommands
variable {σ τ α β : Type}

def Ordinary (x : Except Fault α) : Prop := ∀ f, x = .error f → f.isOrdinary = true

@[simp] theorem ordinary_ok (a : α) : Ordinary (.ok a : Except Fault α) := nofun

@[simp] theorem ordinary_error (f : Fault) :
    Ordinary (.error f : Except Fault α) ↔ f.isOrdinary = true := by
  simp [Ordinary]

theorem Ordinary.map {x : Except Fault α} (h : Ordinary x) (f : α → β) : Ordinary (x.map f) := by
  cases x with
  | error e => simpa [Except.map] using h
  | ok a => simp [Except.map]

def Effect.Ordinary : (e : Effect σ) → e.Answer → Prop
  | .wait, x => ChatCommands.Ordinary x
  | .dispatch _, x => ChatCommands.Ordinary x
  | .emit .., x => ChatCommands.Ordinary x
  | .edit _, x => ChatCommands.Ordinary x
  | _, _ => True

/-- What a callback counts on. The state is what it was called with. -/
def manners (σ τ : Type) : Discipline (hookInterface σ τ) τ where
  allows _ _ := True
  expects t r x := match r, x with
    | .effect e, x => e.Ordinary x
    | .update f, x => x = f t
    | .reply _, x => Ordinary x
  next t r _ := match r with
    | .update f => f t
    | _ => t

def Script.Ordinary (s : Script σ τ) : Prop :=
  ∀ t, s.Follows (manners σ τ) (fun _ r => ChatCommands.Ordinary r) t

structure Host.Ordinary (host : Host σ) : Prop where
  execute : ∀ h m c, Script.Ordinary (host.execute h m c)
  guard : ∀ h m, Script.Ordinary (host.guard h m)
  reply : ∀ h text, Script.Ordinary (host.reply h text)
  listener : ∀ h arguments options, Script.Ordinary (host.listener h arguments options)
  middleware : ∀ h phase, Script.Ordinary (host.middleware h phase)
  parse : ∀ h token slot m, Script.Ordinary (host.parse h token slot m)
  resolve : ∀ h id m, Script.Ordinary (host.resolve h id m)

/-- Faults can be added to what the context has under `errors`. -/
def Event.Gathers (context : EventContext) : Prop :=
  ∀ v, context.find? "errors" = some v → (∃ items, v = .list items) ∨ ∃ n, v = .held n

/-- No middleware puts something other than a list in the place of the faults of listeners. -/
def Host.KeepsErrors (host : Host σ) : Prop :=
  ∀ h phase context, Event.Gathers context →
    (host.middleware h phase).Follows (manners σ EventContext) (fun context _ => Event.Gathers context)
      context

/-- The fault of adding to what is no list, which does not arise where lists are kept. -/
def Unlisted (keeps : Prop) (f : Fault) : Prop := ¬ keeps ∧ ∃ type, f = .noAttribute type "append"

theorem Unlisted.isOrdinary {keeps : Prop} {f : Fault} (h : Unlisted keeps f) :
    f.isOrdinary = true := by
  obtain ⟨-, type, rfl⟩ := h
  rfl

/-- Nothing fatal comes back, and faults are gathered in lists if middleware keep them. Of a thread
it matters only whether it was started for a message, which never changes. -/
def usual (σ : Type) (keeps : Prop) : Discipline (engineInterface σ) Bool where
  allows _ r := match r with
    | .sweep _ _ _ context => keeps → Event.Gathers context
    | _ => True
  expects _ r x := match r, x with
    | .effect (.emit _ _ []), x => ∀ f, x = .error f → Unlisted keeps f
    | .effect e, x => e.Ordinary x
    | .record _, x => x = .ok ()
    | .sweep .., x => ∃ swept, x = .ok swept ∧ (keeps → Event.Gathers swept.context)
    | .notify .., x => ∃ results, x = .ok results
    | _, _ => True
  next b _ _ := b

variable {keeps : Prop} {b : Bool} {host : Host σ}

theorem usual_effect {e : Effect σ} {x : e.Answer}
    (h : (usual σ keeps).expects b (.effect e) x) : e.Ordinary x := by
  cases e with
  | emit event arguments options =>
    cases options with
    | nil => exact fun f hf => (h f hf).isOrdinary
    | cons => exact h
  | _ => exact h

/-- The program gets by with what the discipline counts on and ends as `Q` says. -/
abbrev Engine.Usually (keeps : Prop) (p : Engine σ α) (Q : α → Prop) : Prop :=
  ∀ b, p.Follows (usual σ keeps) (fun _ a => Q a) b

namespace Engine

theorem Usually.bind {p : Engine σ α} {f : α → Engine σ β} {Q : α → Prop} {R : β → Prop}
    (first : p.Usually keeps Q) (rest : ∀ a, Q a → Engine.Usually keeps (f a) R) :
    Engine.Usually keeps (p.bind f) R :=
  fun b => Program.Follows.bind (first b) fun b a h => rest a h b

theorem Usually.mono {p : Engine σ α} {Q R : α → Prop} (h : p.Usually keeps Q)
    (implies : ∀ a, Q a → R a) : p.Usually keeps R :=
  fun b => (h b).mono fun _ => implies

theorem Usually.done {a : α} {Q : α → Prop} (h : Q a) :
    Engine.Usually keeps (.done a : Engine σ α) Q := fun _ => h

theorem Usually.asked {r : EngineRequest σ} {f : r.Answer → Engine σ α} {Q : α → Prop}
    (allowed : (usual σ keeps).allows true r)
    (h : ∀ x, (usual σ keeps).expects true r x → Engine.Usually keeps (f x) Q) :
    Engine.Usually keeps ((Engine.request r).bind f) Q := fun b => ⟨allowed, fun x hx => h x hx b⟩

theorem Usually.noted {f : Unit → Engine σ α} {Q : α → Prop} (n : Notice)
    (h : Engine.Usually keeps (f ()) Q) : Engine.Usually keeps ((Engine.note n).bind f) Q :=
  .asked trivial fun _ _ => h

theorem usually_perform {send : String → Engine σ (Except Fault Value)}
    (hs : ∀ text, (send text).Usually keeps Ordinary) {Q : τ → Except Fault Value → Prop}
    {script : Script σ τ} {t : τ} (h : script.Follows (manners σ τ) Q t) :
    (perform send script t).Usually keeps fun r => Q r.2 r.1 := by
  induction script generalizing t with
  | done r => exact .done h
  | ask r next ih =>
    cases r with
    | effect e =>
      refine fun b => ⟨by trivial, fun x hx => ?_⟩
      exact ih x (h.2 x (usual_effect hx)) b
    | update f => exact ih (f t) (h.2 (f t) rfl)
    | reply text => exact (hs text).bind fun x hx => ih x (h.2 x hx)

theorem usually_noReply (called text : String) :
    (noReply called text : Engine σ (Except Fault Value)).Usually keeps Ordinary :=
  .done (by simp [Fault.isOrdinary, Fault.severity])

theorem usually_runScript {script : Script σ Unit} (h : script.Ordinary) :
    (runScript script).Usually keeps Ordinary :=
  (usually_perform (usually_noReply _) (h ())).bind fun _ hr => .done hr

end Engine

open Engine

theorem Message.usually_answer (ordinary : host.Ordinary) (m : Message) (text : String) :
    (m.answer host text).Usually keeps Ordinary := by
  unfold Message.answer
  cases m.reply with
  | missing type => exact .done (by simp [Fault.isOrdinary, Fault.severity])
  | closed => exact .done (by simp [Fault.isOrdinary, Fault.severity])
  | hook h => exact usually_runScript (ordinary.reply h text)
  | oneWay h => exact (usually_runScript (ordinary.reply h text)).bind fun r hr => .done (hr.map _)

namespace Guard

theorem usually_conclude (command : String) {returned : Except Fault Value} (ballot : Ballot)
    (h : Ordinary returned) :
    (conclude command returned ballot : Engine σ (Except Fault Verdict)).Usually keeps fun x =>
      ∃ verdict, x = .ok verdict := by
  unfold conclude
  cases returned with
  | error f =>
    simp only [(ordinary_error f).1 h, if_true]
    exact .noted _ (.done ⟨_, rfl⟩)
  | ok v =>
    dsimp only
    split
    · exact .noted _ (.done ⟨_, rfl⟩)
    · exact .done ⟨_, rfl⟩
    · exact .noted _ (.done ⟨_, rfl⟩)

theorem usually_evaluate (ordinary : host.Ordinary) (command : String) {guard : Callback}
    (arguments : Assoc Value) (m : Option Message) (fixed : ∀ x, guard = .fixed x → Ordinary x) :
    (evaluate host command guard arguments m).Usually keeps fun r => ∃ verdict, r.1 = .ok verdict := by
  unfold evaluate
  cases guard with
  | value v =>
    exact (usually_conclude command _ (by simp [Fault.isOrdinary, Fault.severity])).bind
      fun verdict h => .done h
  | fixed answer =>
    exact (usually_conclude command _ (fixed answer rfl)).bind fun verdict h => .done h
  | hook h =>
    refine (usually_perform (usually_noReply _) (ordinary.guard h m _)).bind ?_
    intro r hr
    exact (usually_conclude command _ hr).bind fun verdict h => .done h

end Guard
end ChatCommands
