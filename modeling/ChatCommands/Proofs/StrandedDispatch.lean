import Mathlib
import ChatCommands.Proofs.ReachableTags

set_option autoImplicit false

/-!
# Dispatches that strand

A program whose requests are all answered from the shared state is run to its end
by the world, turn by turn. Such is the dispatch of a message whose words lead to
a tag that has no parser, for a host that has every token read which some host
has read: it ends with the fault that the tag is unknown.
-/
namespace ChatCommands
open Text
variable {σ α β : Type} {env : Surroundings σ}

/-- Answered from the shared state alone, the program leads from one state to the other and ends
with the result. -/
inductive Engine.Settles (env : Surroundings σ) : Shared σ → Engine σ α → Shared σ → α → Prop where
  | done (s : Shared σ) (a : α) : Settles env s (.done a) s a
  | ask {s s₁ s' : Shared σ} {r : EngineRequest σ} {next : r.Answer → Engine σ α} {x : r.Answer} {a : α}
      (answered : Answers env s r x s₁) (rest : Settles env s₁ (next x) s' a) :
      Settles env s (.ask r next) s' a

namespace Engine

theorem Settles.bind {s s₁ s' : Shared σ} {p : Engine σ α} {f : α → Engine σ β} {a : α} {b : β}
    (first : p.Settles env s s₁ a) (rest : Engine.Settles env s₁ (f a) s' b) :
    Engine.Settles env s (p.bind f) s' b := by
  induction first with
  | done s a => exact rest
  | ask answered _ ih => exact .ask answered (ih rest)

theorem Settles.noted {s s' : Shared σ} {n : Notice} {f : Unit → Engine σ α} {a : α}
    (rest : Engine.Settles env (s.note n) (f ()) s' a) :
    Engine.Settles env s ((Engine.note n).bind f) s' a := .ask (.note n) rest

end Engine

theorem Answers.step {s s' : Shared σ} {r : EngineRequest σ} {x : r.Answer}
    (answered : Answers env s r x s') (next : r.Answer → Task σ) :
    Task.step env s (.ask r next) = .go (next x) s' := by
  cases answered with
  | emitNowhere event arguments options f h => simp [Task.step, h]
  | _ => rfl

namespace World
variable {w : World σ} {i : Nat} {rest : List Turn}

end World

/-- A host that has every token read which some host has read. -/
def readingHost : Host Unit := { Host.silent with resolve := fun _ _ _ => .done (.ok (.bool true)) }

theorem ArgumentParser.settles_run (env : Surroundings Unit) {token : String} {p : ArgumentParser}
    (readable : p.canRead token = true) (m : Option Message) (slot : Slot) (s : Shared Unit) :
    ∃ s' v, (p.run readingHost m slot token).Settles env s s' (.ok v) := by
  cases p with
  | text => exact ⟨s, _, .done s _⟩
  | integer =>
    unfold canRead at readable
    cases h : Argument.readInteger token with
    | ok n => exact ⟨s, .int n, by simpa [run, h] using .done s _⟩
    | error f => simp [h, Except.isOk, Except.toBool] at readable
  | number =>
    unfold canRead at readable
    cases h : Argument.readNumber token with
    | ok x => exact ⟨s, .float x, by simpa [run, h] using .done s _⟩
    | error f => simp [h, Except.isOk, Except.toBool] at readable
  | date strict patterns =>
    unfold canRead at readable
    simp only [run]
    cases h : Argument.readDate patterns token with
    | ok d => exact ⟨s, _, .done s _⟩
    | error f =>
      simp only [h] at readable
      refine ⟨s.note (.dateUnread token), .noDate, ?_⟩
      dsimp only
      rw [if_neg (by simpa using readable)]
      exact .noted (.done _ _)
  | member resolver =>
    cases resolver with
    | none | unusable type => cases readable
    | hook hook =>
      simp only [canRead] at readable
      cases h : Argument.readMention token with
      | ok id => exact ⟨s, .bool true, by simpa [run, h] using .done s _⟩
      | error f => simp [h, Except.isOk, Except.toBool] at readable
  | host label hook => exact ⟨s, .none, .done s _⟩

namespace Dispatcher

end Dispatcher
end ChatCommands
