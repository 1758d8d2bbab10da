import Mathlib
import ChatCommands.Proofs.EmissionCourse

set_option autoImplicit false

/-!
# Middleware that come and go

Middleware are added and taken away by tasks, at any time. The record has each such
change, so that it tells the list at every moment: what was there at first, with the
changes that are on record before. A change moves a middleware only if it takes one
away that stands in front, and then by one place.
-/
namespace ChatCommands
variable {σ : Type} {env : Surroundings σ}

/-- Taking one away moves those behind it by one place. -/
theorem idxOf_erase {α : Type} [DecidableEq α] {l : List α} {a b : α} (other : a ≠ b) (mem : a ∈ l) :
    (l.erase b).idxOf a = l.idxOf a ∧ (b ∈ l → l.idxOf a < l.idxOf b) ∨
      l.idxOf b < l.idxOf a ∧ (l.erase b).idxOf a + 1 = l.idxOf a := by
  induction l with
  | nil => cases mem
  | cons c l ih =>
    by_cases here : c = b
    · subst here
      right
      rw [List.erase_cons_head, List.idxOf_cons_self, List.idxOf_cons_ne _ (Ne.symm other)]
      exact ⟨Nat.succ_pos _, rfl⟩
    rw [List.erase_cons_tail (by simpa using here)]
    by_cases same : c = a
    · subst same
      left
      rw [List.idxOf_cons_self, List.idxOf_cons_self, List.idxOf_cons_ne _ other]
      exact ⟨rfl, fun _ => Nat.succ_pos _⟩
    rw [List.idxOf_cons_ne _ same, List.idxOf_cons_ne _ same, List.idxOf_cons_ne _ here]
    have later : b ∈ c :: l → b ∈ l := fun mem => (List.mem_cons.1 mem).resolve_left (Ne.symm here)
    rcases ih ((List.mem_cons.1 mem).resolve_left (Ne.symm same)) with ⟨stays, behind⟩ | ⟨front, moves⟩
    · exact .inl ⟨congrArg Nat.succ stays, fun mem => Nat.succ_lt_succ (behind (later mem))⟩
    · exact .inr ⟨Nat.succ_lt_succ front, congrArg Nat.succ moves⟩

/-- The middleware after the deed. -/
def Deed.edits (d : Deed σ) (ms : List Middleware) : List Middleware :=
  match d with
  | .asks (.effect (.edit (.install m))) => ms ++ [m]
  | .asks (.effect (.edit (.uninstall m))) => ms.erase m
  | _ => ms

/-- The middleware after these moments. -/
def editedBy (t : List (Moment σ)) (ms : List Middleware) : List Middleware :=
  t.foldl (fun ms d => d.deed.edits ms) ms

@[simp] theorem editedBy_nil (ms : List Middleware) : editedBy ([] : List (Moment σ)) ms = ms := rfl

theorem editedBy_cons (d : Moment σ) (t : List (Moment σ)) (ms : List Middleware) :
    editedBy (d :: t) ms = editedBy t (d.deed.edits ms) := rfl

theorem editedBy_append (t u : List (Moment σ)) (ms : List Middleware) :
    editedBy (t ++ u) ms = editedBy u (editedBy t ms) :=
  List.foldl_append ..

/-- From these middleware on, the list changes as the moments say. -/
def Evolves : List Middleware → List (Moment σ) → Prop
  | _, [] => True
  | ms, d :: t => d.before.shared.subscribers.middleware = ms ∧ Evolves (d.deed.edits ms) t

theorem evolves_append {t u : List (Moment σ)} {ms : List Middleware} :
    Evolves ms (t ++ u) ↔ Evolves ms t ∧ Evolves (editedBy t ms) u := by
  induction t generalizing ms with
  | nil => simp [Evolves]
  | cons d t ih => rw [List.cons_append, Evolves, Evolves, ih, and_assoc, editedBy_cons]

/-- The host changes the list of middleware only through tasks. -/
def Act.KeepsMiddleware : Act σ → Prop
  | .adjust change => ∀ s, (change s).subscribers.middleware = s.subscribers.middleware
  | _ => True

theorem EventOutlet.check_ok {o : EventOutlet} {name : String} (h : o.check name = .ok ()) (other : String) :
    o.check other = .ok () := by
  cases o with
  | unusable => cases h
  | standard | bare => rfl

theorem edits_of_answers {s s' : Shared σ} {r : EngineRequest σ} {x : r.Answer} (h : Answers env s r x s')
    (outlet : env.dispatcher.events.check "emit" = .ok ()) :
    s'.subscribers.middleware = (Deed.asks r).edits s.subscribers.middleware := by
  cases h with
  | edit change =>
    rw [Shared.tryEdit, EventOutlet.check_ok outlet]
    cases change with
    | unlisten event h =>
      simp only [Shared.edit, Subscribers.apply]
      split <;> rfl
    | listen | install | uninstall => rfl
  | claimRun c =>
    simp only [Shared.claimRun]
    split
    · split <;> rfl
    · rfl
  | record c =>
    simp only [Shared.record]
    split <;> rfl
  | host | advance | emitNowhere | reset | note | finish | seconds | listeners | middlewareAt | count => rfl

namespace World
variable {permitted : Act σ → Prop} {w₀ w : World σ} {log : List (Moment σ)}

theorem evolves_of_idle {ms : List Middleware} {t : List (Moment σ)}
    (same : ∀ d ∈ t, d.before.shared.subscribers.middleware = ms) (idle : ∀ d ∈ t, d.deed.edits ms = ms) :
    Evolves ms t ∧ editedBy t ms = ms := by
  induction t with
  | nil => exact ⟨trivial, rfl⟩
  | cons d t ih =>
    obtain ⟨evolves, edited⟩ := ih (fun e he => same e (by simp [he])) (fun e he => idle e (by simp [he]))
    have here := idle d (by simp)
    exact ⟨⟨same d (by simp), by rwa [here]⟩, by rwa [editedBy_cons, here]⟩

theorem edits_of_mem_ensuing {i : Nat} {r : EngineRequest σ} {d : Moment σ} (h : d ∈ w.ensuing env i r)
    (ms : List Middleware) : d.deed.edits ms = ms := by
  rcases mem_ensuing h with ⟨-, deed⟩ | ⟨-, _, _, _, deed⟩ <;> rw [deed] <;> rfl

theorem edits_of_mem_acted {a : Act σ} {d : Moment σ} (h : d ∈ w.acted env a) (ms : List Middleware) :
    d.deed.edits ms = ms := by
  rcases mem_acted h with ⟨_, deed⟩ | ⟨_, deed⟩ <;> rw [deed] <;> rfl

/-- A turn changes the list as it is recorded. -/
theorem evolves_tick (outlet : env.dispatcher.events.check "emit" = .ok ()) (w : World σ) :
    Evolves w.shared.subscribers.middleware (w.taken env) ∧
      editedBy (w.taken env) w.shared.subscribers.middleware = (w.tick env).shared.subscribers.middleware := by
  have before : ∀ d ∈ w.taken env, d.before.shared.subscribers.middleware = w.shared.subscribers.middleware :=
    fun d hd => by rw [(moves_tick env w).before hd]
  have idle (still : (w.tick env).shared = w.shared)
      (each : ∀ d ∈ w.taken env, ∀ ms, d.deed.edits ms = ms) :
      Evolves w.shared.subscribers.middleware (w.taken env) ∧ editedBy (w.taken env)
        w.shared.subscribers.middleware = (w.tick env).shared.subscribers.middleware := by
    rw [still]
    exact evolves_of_idle before fun d hd => each d hd _
  have asking {i : Nat} {r : EngineRequest σ} {rest : List Turn} {next : r.Answer → Task σ}
      (turns : w.turns = .step i :: rest) (state : w.state? i = some (.running (.ask r next)))
      (plain : ∀ ms, (Deed.asks r).edits ms = ms) : ∀ d ∈ w.taken env, ∀ ms, d.deed.edits ms = ms := by
    rw [taken_ask turns state]
    exact List.forall_mem_cons.2 ⟨plain, fun d hd => edits_of_mem_ensuing hd⟩
  have ticked := tick_ticked env w
  generalize w.tick env = w' at ticked idle ⊢
  -- only a request that is answered at once can change what is shared
  cases ticked with
  | rest turns => exact idle rfl (by simp [taken, turns])
  | dropStep turns none => exact idle rfl (by simp [taken_of_idle turns none])
  | dropReport turns => exact idle rfl (by simp [taken_report turns])
  | hear turns => exact idle rfl (by simp [taken_report turns])
  | answer turns state answered =>
    rw [taken_ask turns state, ensuing_of_answers answered]
    exact ⟨⟨rfl, trivial⟩, (edits_of_answers answered outlet).symm⟩
  | expand turns state expands => exact idle rfl (asking turns state fun ms => by cases expands <;> rfl)
  | wait turns state => exact idle rfl (asking turns state fun ms => rfl)
  | notifyNone turns state => exact idle rfl (asking turns state fun ms => rfl)
  | spawn turns thread state =>
    have running := state ▸ state?_of_thread thread
    exact idle rfl (asking turns running fun ms => rfl)
  | stop turns thread state =>
    have running := state ▸ state?_of_thread thread
    exact idle rfl (by simp [taken, turns, running, Deed.edits])
  | join turns state => exact idle rfl (by simp [taken, turns, state, Deed.edits])

/-- The record tells the list of middleware at every moment. -/
theorem Records.evolves (run : Records env permitted [] w₀ log w)
    (keeps : ∀ a, permitted a → a.KeepsMiddleware) (outlet : env.dispatcher.events.check "emit" = .ok ()) :
    Evolves w₀.shared.subscribers.middleware log ∧
      editedBy log w₀.shared.subscribers.middleware = w.shared.subscribers.middleware := by
  induction run with
  | start => exact ⟨trivial, rfl⟩
  | @tick log w run ih =>
    rw [evolves_append, editedBy_append, ih.2]
    exact ⟨⟨ih.1, (evolves_tick outlet w).1⟩, (evolves_tick outlet w).2⟩
  | @act log w run a ha ih =>
    obtain ⟨evolves, edited⟩ := evolves_of_idle (fun d hd => by rw [before_of_mem_acted hd])
      fun d hd => edits_of_mem_acted hd _
    rw [evolves_append, editedBy_append, ih.2, edited]
    refine ⟨⟨ih.1, evolves⟩, ?_⟩
    have kept := keeps a ha
    cases a with
    | adjust change => exact (kept w.shared).symm
    | answer i x =>
      simp only [World.act]
      split <;> rfl
    | arrange turns =>
      simp only [World.act]
      split <;> rfl
    | receive | perform | cancel => rfl

end World
end ChatCommands
