import Mathlib
import ChatCommands.Proofs.DispatchCourse

set_option autoImplicit false

/-!
# Programs that end

A dispatch stands for other programs only in the event that reports its outcome:
the event stands for sweeps through the middleware, each sweep for the one after
it, and a sweep past the last middleware for none. So a dispatch ends after so
many steps if its callbacks leave the middleware alone and ask for no dispatch and
no event that does not end.
-/
namespace ChatCommands
variable {σ α β : Type}

/-- An effect that starts nothing and does not change who receives events. -/
def Effect.Direct : Effect σ → Prop
  | .host _ | .wait | .advance _ | .resetCooldowns | .note _ => True
  | _ => False

namespace EngineRequest

def Direct : EngineRequest σ → Prop
  | .effect e => e.Direct
  | .sweep .. | .notify .. => False
  | _ => True

/-- The request does not change who receives events. -/
def Steady : EngineRequest σ → Prop
  | .effect (.edit _) => False
  | _ => True

def tasks (env : Surroundings σ) : EngineRequest σ → List (Engine σ (Except Fault Value))
  | .notify hooks arguments options => listenerTasks env hooks arguments options
  | _ => []

/-- The answer can be given while there are so many middleware. -/
def Allows (count : Nat) : (r : EngineRequest σ) → r.Answer → Prop
  | .middlewareAt index, m => count ≤ index → m = none
  | _, _ => True

end EngineRequest

/-- However its requests are answered while there are so many middleware, the program ends, and so do
all programs that they stand for. -/
inductive Engine.Ends (env : Surroundings σ) (count : Nat) : {α : Type} → Engine σ α → Prop where
  | done {α : Type} (a : α) : Ends env count (.done a)
  | ask {α : Type} {r : EngineRequest σ} {next : r.Answer → Engine σ α} (steady : r.Steady)
      (expansions : ∀ p, Expands env r p → Ends env count p)
      (tasks : ∀ p ∈ r.tasks env, Ends env count p)
      (answers : ∀ x, r.Allows count x → Ends env count (next x)) : Ends env count (.ask r next)

/-- What is asked for ends, however many middleware there are. -/
def Effect.Ends (env : Surroundings σ) (e : Effect σ) : Prop :=
  ∀ count, (Engine.request (.effect e)).Ends env count

/-- Callbacks ask for nothing that does not end. -/
structure CallbacksEnd (env : Surroundings σ) : Prop where
  others : env.host.Within (Effect.Ends env)
  execute : ∀ h m c, Script.Within (Effect.Ends env) (env.host.execute h m c)

variable {env : Surroundings σ} {count : Nat}

namespace Engine

theorem Ends.bind {p : Engine σ α} {f : α → Engine σ β} (first : p.Ends env count)
    (rest : ∀ a, Engine.Ends env count (f a)) : Engine.Ends env count (p.bind f) := by
  induction first with
  | done a => exact rest a
  | ask steady expansions tasks answers _ _ ih =>
    exact .ask steady expansions tasks fun x hx => ih x hx rest

theorem Ends.request {r : EngineRequest σ} (steady : r.Steady)
    (expansions : ∀ p, Expands env r p → Engine.Ends env count p)
    (tasks : ∀ p ∈ r.tasks env, Engine.Ends env count p) : (Engine.request r).Ends env count :=
  .ask steady expansions tasks fun x _ => .done x

theorem Ends.asked {r : EngineRequest σ} {f : r.Answer → Engine σ α}
    (ends : (Engine.request r).Ends env count)
    (answers : ∀ x, r.Allows count x → Engine.Ends env count (f x)) :
    Engine.Ends env count ((Engine.request r).bind f) := by
  cases ends with
  | ask steady expansions tasks _ => exact .ask steady expansions tasks answers

theorem Ends.direct {r : EngineRequest σ} (h : r.Direct) : (Engine.request r).Ends env count := by
  refine .request ?_ (fun p expands => ?_) ?_
  · cases r with
    | effect e => cases e <;> first | exact h | trivial
    | _ => trivial
  · cases expands <;> exact h.elim
  · cases r with
    | notify listeners arguments options => exact h.elim
    | _ => simp [EngineRequest.tasks]

theorem Ends.of_uses {P : EngineRequest σ → Prop} {p : Engine σ α} (uses : Program.Uses P p)
    (ends : ∀ r, P r → (Engine.request r).Ends env count) : p.Ends env count := by
  induction p with
  | done a => exact .done a
  | ask r next ih => exact (ends r uses.1).asked fun x _ => ih x (uses.2 x)

theorem Within.ends {p : Engine σ α} (h : p.Within (Effect.Ends env)) : p.Ends env count := by
  refine .of_uses h fun r hr => ?_
  cases r with
  | effect e => exact hr count
  | seconds | count => exact .direct trivial
  | _ => exact hr.elim

end Engine

/-- Callbacks that start nothing themselves do so. -/
theorem callbacksEnd_of_direct (others : env.host.Within Effect.Direct)
    (execute : ∀ h m c, Script.Within Effect.Direct (env.host.execute h m c)) : CallbacksEnd env where
  others := others.mono fun _ direct _ => .direct direct
  execute h m c := (execute h m c).mono fun _ direct _ => .direct direct

namespace Event
variable (callbacks : CallbacksEnd env)
include callbacks

/-- The sweeps from an index on end, since there are only so many middleware. -/
theorem ends_sweepFrom (phase : Phase) (event : String) (index : Nat) (context : EventContext) :
    (sweepFrom env.host phase event index context).Ends env count := by
  induction left : count - index using Nat.strong_induction_on generalizing index context with
  | _ left ih =>
    apply Engine.Ends.asked (.direct (by trivial))
    intro m hm
    cases m with
    | none => exact .done _
    | some m =>
      have inside : index < count := by
        by_contra past
        cases hm (not_lt.1 past)
      have next : ∀ context, (Engine.request (.sweep phase event (index + 1) context)).Ends env count := by
        refine fun context => .request trivial (fun p expands => ?_) (by simp [EngineRequest.tasks])
        cases expands
        exact ih (count - (index + 1)) (by omega) _ _ rfl
      have noted : ∀ n : Notice, (Engine.note n : Engine σ Unit).Ends env count := fun n =>
        (Engine.within_note callbacks.others n).ends
      apply Engine.Ends.bind (Middleware.within_call callbacks.others phase context m).ends
      rintro ⟨f | v, context⟩
      · dsimp only
        split
        · exact (noted _).bind fun _ => next _
        · exact .done _
      · dsimp only
        split
        · exact (noted _).bind fun _ => .done _
        · exact next _

theorem ends_sweep (phase : Phase) (event : String) (context : EventContext) :
    (Engine.request (.sweep phase event 0 context)).Ends env count := by
  refine .request trivial (fun p expands => ?_) (by simp [EngineRequest.tasks])
  cases expands
  exact ends_sweepFrom callbacks phase event 0 context

theorem ends_emit (event : String) (arguments : List Value) (options : Assoc Value) :
    (emit env.host event arguments options).Ends env count := by
  unfold emit
  split
  · exact .done _
  · refine (Engine.Ends.direct (by trivial)).bind fun listeners =>
      (ends_sweep callbacks .before event _).bind fun swept => ?_
    split
    · exact .done _
    · exact .done _
    · refine Engine.Ends.bind ?_ fun results => ?_
      · unfold notify
        split
        · exact .done _
        · refine .request trivial (fun p expands => by cases expands) ?_
          intro p hp
          obtain ⟨h, -, rfl⟩ := List.mem_map.1 hp
          exact (Engine.within_runScript (callbacks.others.listener h arguments options)).ends
      · split
        · exact .done _
        · refine (within_gatherFaults callbacks.others event _ _).ends.bind ?_
          intro gathered
          split
          · exact .done _
          · refine (ends_sweep callbacks .after event _).bind ?_
            intro _
            split <;> exact .done _

end Event

theorem Dispatcher.ends_process (callbacks : CallbacksEnd env) (d : Dispatcher) (m : Message) :
    (d.process env.host m).Ends env count := by
  have reported : ∀ o, Effect.Ends env (.emit finishedEvent [.outcome o] []) := by
    refine fun o count => .request trivial (fun p expands => ?_) (by simp [EngineRequest.tasks])
    cases expands
    exact Event.ends_emit callbacks _ _ _
  cases invokes : d.invoked? m with
  | none =>
    obtain ⟨r, done⟩ := process_of_not_invoked env.host invokes
    exact done ▸ .done r
  | some command =>
    refine .of_uses (dispatches_process callbacks.others (callbacks.execute · m ·) reported invokes)
      fun r hr => ?_
    cases r with
    | effect e => exact hr count
    | claimRun | finish | record => exact .direct trivial
    | _ => exact hr.elim

end ChatCommands
