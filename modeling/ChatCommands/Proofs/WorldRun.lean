import Mathlib
import ChatCommands.Proofs.TaskStep

set_option autoImplicit false

/-!
# Runs of the world

The world takes its turns, and between two turns the host acts: it hands over a
message, starts code of its own, goes on with a task that waits, cancels one,
lets the turns that are due be taken in another order, or changes anything that
is shared but the cooldowns. A run is any sequence of turns and acts; its history
lists what concerned the cooldowns, the latest first.
-/
namespace ChatCommands
variable {σ : Type}

/-- Something in the history of a run. Each entry but the last names the thread that made it. -/
inductive Entry where
  /-- the thread was started for a message -/
  | received (thread : Nat)
  | refused (thread : Nat) (command : Definition) (time : Binary64)
  | admitted (thread : Nat) (command : Definition) (time : Binary64)
  | completed (thread : Nat) (command : Definition) (time : Binary64)
  | released (thread : Nat) (command : String)
  | forgotten
  deriving DecidableEq, Repr

/-- What goes into the history when a thread makes a request. -/
def entryOf (env : Surroundings σ) (s : Shared σ) (i : Nat) : EngineRequest σ → Option Entry
  | .claimRun c =>
    if s.isBlocked env c.name then some (.refused i c (s.time env))
    else some (.admitted i c (s.time env))
  | .finish name => some (.released i name)
  | .record c =>
    if env.dispatcher.clock.fault?.isNone then some (.completed i c (s.time env)) else none
  | .effect .resetCooldowns => some .forgotten
  | _ => none

/-- What the host can do between two turns. -/
inductive Act (σ : Type) where
  | receive (m : Message)
  | perform (script : Script σ Unit)
  | answer (thread : Nat) (x : Except Fault Value)
  | cancel (root : Nat)
  | arrange (turns : List Turn)
  | adjust (change : Shared σ → Shared σ)

namespace World

/-- What the next turn puts into the history. -/
def nextEntry (env : Surroundings σ) (w : World σ) : Option Entry :=
  match w.turns with
  | .step i :: _ =>
    match w.state? i with
    | some (.running (.ask r _)) => entryOf env w.shared i r
    | _ => none
  | _ => none

def act (env : Surroundings σ) (w : World σ) : Act σ → World σ
  | .receive m =>
    (w.start ((env.dispatcher.process env.host m).bind fun r => .done (.outcome r))).1
  | .perform script => (w.start ((Engine.runScript script).bind fun r => .done (.value r))).1
  | .answer i x =>
    match w.state? i with
    | some (.waiting next) =>
      { w.setState i (.running (next x)) with turns := w.turns ++ [.step i] }
    | _ => w
  | .cancel root => w.cancel root
  | .arrange turns => if turns.Perm w.turns then { w with turns } else w
  | .adjust change => { w with shared := { change w.shared with tracker := w.shared.tracker } }

def entryOfAct (w : World σ) : Act σ → Option Entry
  | .receive _ => some (.received w.threads.length)
  | _ => none

/-- A run leads from the first world to this one, with this history. -/
inductive Reaches (env : Surroundings σ) (permitted : Act σ → Prop) (first : World σ) :
    List Entry → World σ → Prop where
  | start : Reaches env permitted first [] first
  | tick {h : List Entry} {w : World σ} (run : Reaches env permitted first h w) :
      Reaches env permitted first ((w.nextEntry env).toList ++ h) (w.tick env)
  | act {h : List Entry} {w : World σ} (run : Reaches env permitted first h w) (a : Act σ)
      (ha : permitted a) : Reaches env permitted first ((w.entryOfAct a).toList ++ h) (w.act env a)

theorem Reaches.mono {env : Surroundings σ} {permitted permitted' : Act σ → Prop} {first w : World σ}
    {h : List Entry} (run : Reaches env permitted first h w) (le : ∀ a, permitted a → permitted' a) :
    Reaches env permitted' first h w := by
  induction run with
  | start => exact .start
  | tick run ih => exact ih.tick
  | act run a ha ih => exact ih.act a (le a ha)

/-- The history and the world after so many turns. -/
def takeTurns (env : Surroundings σ) (w : World σ) : Nat → List Entry → List Entry × World σ
  | 0, h => (h, w)
  | k + 1, h => takeTurns env (w.tick env) k ((w.nextEntry env).toList ++ h)

theorem Reaches.takeTurns {env : Surroundings σ} {permitted : Act σ → Prop} {first w : World σ}
    {h : List Entry} (run : Reaches env permitted first h w) (k : Nat) :
    Reaches env permitted first (w.takeTurns env k h).1 (w.takeTurns env k h).2 := by
  induction k generalizing h w with
  | zero => exact run
  | succ k ih => exact ih run.tick

/-- The history and the world when a message has been handed over and so many turns were taken. -/
def dispatch (env : Surroundings σ) (w : World σ) (m : Message) (turns : Nat) (h : List Entry) :
    List Entry × World σ :=
  takeTurns env (w.act env (.receive m)) turns (.received w.threads.length :: h)

theorem Reaches.dispatch {env : Surroundings σ} {permitted : Act σ → Prop} {first w : World σ}
    {h : List Entry} (run : Reaches env permitted first h w) (m : Message) (turns : Nat)
    (hm : permitted (.receive m)) :
    Reaches env permitted first (w.dispatch env m turns h).1 (w.dispatch env m turns h).2 :=
  (run.act (.receive m) hm).takeTurns turns

theorem state?_eq (w : World σ) (i : Nat) : w.state? i = (w.threads[i]?).map (·.state) := by
  unfold state?
  cases w.threads[i]? <;> rfl

theorem state?_of_thread {w : World σ} {i : Nat} {t : Thread σ} (h : w.threads[i]? = some t) :
    w.state? i = some t.state := by
  simp [state?_eq, h]

theorem exists_thread {w : World σ} {i : Nat} {st : ThreadState σ} (h : w.state? i = some st) :
    ∃ t, w.threads[i]? = some t ∧ t.state = st := by
  rw [state?_eq] at h
  exact Option.map_eq_some_iff.1 h

theorem lt_of_state? {w : World σ} {i : Nat} {st : ThreadState σ} (h : w.state? i = some st) :
    i < w.threads.length := by
  obtain ⟨t, ht, -⟩ := exists_thread h
  exact (List.getElem?_eq_some_iff.1 ht).1

theorem state?_of_finish? {w : World σ} {i : Nat} {r : Finish} (h : w.finish? i = some r) :
    w.state? i = some (.finished r) := by
  unfold finish? at h
  split at h
  case h_1 r' hs => rw [hs, Option.some.inj h]
  case h_2 => cases h

@[simp] theorem length_setState (w : World σ) (i : Nat) (st : ThreadState σ) :
    (w.setState i st).threads.length = w.threads.length := by
  simp [setState]

theorem state?_setState (w : World σ) (i j : Nat) (st : ThreadState σ) :
    (w.setState i st).state? j = if i = j then (w.state? j).map fun _ => st else w.state? j := by
  by_cases h : i = j <;> simp [state?_eq, setState, h, Function.comp_def]

theorem state?_setState_self {w : World σ} {i : Nat} {st old : ThreadState σ} (h : w.state? i = some old) :
    (w.setState i st).state? i = some st := by
  simp [state?_setState, h]

theorem state?_setState_cases {w : World σ} {i j : Nat} {st st' : ThreadState σ}
    (h : (w.setState i st).state? j = some st') :
    (j = i ∧ st' = st) ∨ (j ≠ i ∧ w.state? j = some st') := by
  rw [state?_setState] at h
  split at h
  case isTrue hij =>
    obtain ⟨_, _, rfl⟩ := Option.map_eq_some_iff.1 h
    exact .inl ⟨hij.symm, rfl⟩
  case isFalse hij => exact .inr ⟨Ne.symm hij, h⟩

/-- The ways in which a turn is taken. -/
inductive Ticked (env : Surroundings σ) (w : World σ) : World σ → Prop where
  | rest (h : w.turns = []) : Ticked env w w
  | dropStep {i : Nat} {rest : List Turn} (h : w.turns = .step i :: rest)
      (idle : ∀ st, w.state? i = some st →
        (∃ next, st = .waiting next) ∨ (∃ r, st = .finished r) ∨
          ∃ children missing cancelled next, st = .joining children (missing + 1) cancelled next) :
      Ticked env w { w with turns := rest }
  | dropReport {i : Nat} {rest : List Turn} (h : w.turns = .report i :: rest)
      (idle : ∀ t parent, w.threads[i]? = some t → t.parent = some parent →
        ∀ children missing cancelled next,
          w.state? parent ≠ some (.joining children (missing + 1) cancelled next)) :
      Ticked env w { w with turns := rest }
  | answer {i : Nat} {rest : List Turn} {r : EngineRequest σ} {next : r.Answer → Task σ}
      {x : r.Answer} {s : Shared σ} (h : w.turns = .step i :: rest)
      (state : w.state? i = some (.running (.ask r next))) (answered : Answers env w.shared r x s) :
      Ticked env w { w.setState i (.running (next x)) with shared := s }
  | expand {i : Nat} {rest : List Turn} {r : EngineRequest σ} {next : r.Answer → Task σ}
      {p : Engine σ r.Answer} (h : w.turns = .step i :: rest)
      (state : w.state? i = some (.running (.ask r next))) (expands : Expands env r p) :
      Ticked env w (w.setState i (.running (p.bind next)))
  | wait {i : Nat} {rest : List Turn} {next : Except Fault Value → Task σ}
      (h : w.turns = .step i :: rest)
      (state : w.state? i = some (.running (.ask (.effect .wait) next))) :
      Ticked env w { w.setState i (.waiting next) with turns := rest }
  | notifyNone {i : Nat} {rest : List Turn} {listeners : List Hook} {arguments : List Value}
      {options : Assoc Value} {next : Except Fault (List (Except Fault Value)) → Task σ}
      (h : w.turns = .step i :: rest)
      (state : w.state? i = some (.running (.ask (.notify listeners arguments options) next)))
      (none : listenerTasks env listeners arguments options = []) :
      Ticked env w (w.setState i (.running (next (.ok []))))
  | spawn {i : Nat} {rest : List Turn} {t : Thread σ} {listeners : List Hook}
      {arguments : List Value} {options : Assoc Value}
      {next : Except Fault (List (Except Fault Value)) → Task σ}
      (h : w.turns = .step i :: rest) (thread : w.threads[i]? = some t)
      (state : t.state = .running (.ask (.notify listeners arguments options) next))
      (some : listenerTasks env listeners arguments options ≠ []) :
      Ticked env w ({ w with turns := rest }.spawn i t.root
        (listenerTasks env listeners arguments options) next)
  | stop {i : Nat} {rest : List Turn} {t : Thread σ} {r : Finish} (h : w.turns = .step i :: rest)
      (thread : w.threads[i]? = some t) (state : t.state = .running (.done r)) :
      Ticked env w { w.setState i (.finished r) with
        turns := if t.parent.isSome then rest ++ [.report i] else rest }
  | join {i : Nat} {rest : List Turn} {children : List Nat} {cancelled : Bool}
      {next : Except Fault (List (Except Fault Value)) → Task σ} (h : w.turns = .step i :: rest)
      (state : w.state? i = some (.joining children 0 cancelled next)) :
      Ticked env w (w.setState i (.running (next
        (if cancelled then .error .cancelled else .ok (children.map w.resultOf)))))
  | hear {i parent : Nat} {rest : List Turn} {t : Thread σ} {children : List Nat} {missing : Nat}
      {cancelled : Bool} {next : Except Fault (List (Except Fault Value)) → Task σ}
      (h : w.turns = .report i :: rest) (thread : w.threads[i]? = some t)
      (isChild : t.parent = some parent)
      (state : w.state? parent = some (.joining children (missing + 1) cancelled next)) :
      Ticked env w { w.setState parent (.joining children missing cancelled next) with
        turns := if missing = 0 then rest ++ [.step parent] else rest }

theorem stepThread_ticked {env : Surroundings σ} {w : World σ} {i : Nat} {rest : List Turn}
    (h : w.turns = .step i :: rest) : Ticked env w (w.stepThread env i rest) := by
  unfold stepThread
  cases ht : w.threads[i]? with
  | none => exact .dropStep h fun st hs => by simp [state?_eq, ht] at hs
  | some t =>
    obtain ⟨state, parent, root⟩ := t
    have hs := state?_of_thread ht
    cases state with
    | running p =>
      have stepped := Task.step_stepped env w.shared p
      dsimp only
      generalize p.step env w.shared = result at stepped
      cases stepped with
      | stop r => exact .stop h ht rfl
      | answer answered => exact .answer h hs answered
      | expand expands => exact .expand h hs expands
      | wait next => exact .wait h hs
      | spawn listeners arguments options next =>
        cases tasks : listenerTasks env listeners arguments options with
        | nil => exact .notifyNone h hs tasks
        | cons first others =>
          have some : listenerTasks env listeners arguments options ≠ [] := by simp [tasks]
          simpa only [tasks] using Ticked.spawn h ht rfl some
    | waiting next =>
      refine .dropStep h fun st hst => .inl ⟨next, ?_⟩
      simpa [hs, eq_comm] using hst
    | joining children missing cancelled next =>
      cases missing with
      | zero => exact .join h hs
      | succ missing =>
        refine .dropStep h fun st hst => .inr (.inr ⟨children, missing, cancelled, next, ?_⟩)
        simpa [hs, eq_comm] using hst
    | finished r =>
      refine .dropStep h fun st hst => .inr (.inl ⟨r, ?_⟩)
      simpa [hs, eq_comm] using hst

theorem tick_go {env : Surroundings σ} {w : World σ} {i : Nat} {rest : List Turn} {p p' : Task σ}
    {s : Shared σ} (h : w.turns = .step i :: rest) (state : w.state? i = some (.running p))
    (step : p.step env w.shared = .go p' s) :
    w.tick env = { w.setState i (.running p') with shared := s } := by
  obtain ⟨t, ht, hs⟩ := exists_thread state
  simp only [tick, h, stepThread, ht, hs, step]
  rw [← h]
  rfl

theorem tick_ticked (env : Surroundings σ) (w : World σ) : Ticked env w (w.tick env) := by
  unfold tick
  split
  case h_1 h => exact .rest h
  case h_2 i rest h => exact stepThread_ticked h
  case h_3 i rest h =>
    split
    case h_1 state parent root ht =>
      unfold hear
      split
      case h_1 children missing cancelled next hs => exact .hear h ht rfl hs
      case h_2 hs =>
        refine .dropReport h ?_
        intro t p ht' hp children missing cancelled next hs'
        rw [ht] at ht'
        cases ht'
        cases hp
        exact hs _ _ _ _ hs'
    case h_2 ht =>
      refine .dropReport h fun t p ht' hp => absurd ht' ?_
      obtain ⟨state, parent, root⟩ := t
      cases hp
      exact ht state p root

end World
end ChatCommands
