import ChatCommands.Engine.Step

set_option autoImplicit false

/-!
# The world

Tasks take turns. A task whose turn it is takes one step after the other until it
ends, waits for the host or waits for tasks of its own. These get their turns in
the order in which they were started, after all turns that were due before. When
a task ends, the task that waits for it is told in a turn of its own, and once it
has been told of all it gets its turn again. The host may cancel a task: whatever
it or its tasks wait for then fails.
-/
namespace ChatCommands

inductive ThreadState (σ : Type) where
  | running (task : Task σ)
  | waiting (next : Except Fault Value → Task σ)
  /-- waits for its own tasks, of which so many have yet to report; it may have been cancelled -/
  | joining (children : List Nat) (missing : Nat) (cancelled : Bool)
      (next : Except Fault (List (Except Fault Value)) → Task σ)
  | finished (r : Finish)

/-- The state of a thread after it was cancelled, and whether it gets its turn. -/
def ThreadState.cancel {σ : Type} : ThreadState σ → ThreadState σ × Bool
  | .waiting next => (.running (next (.error .cancelled)), true)
  | .joining children missing _ next => (.joining children missing true next, false)
  | state => (state, false)

structure Thread (σ : Type) where
  state : ThreadState σ
  /-- the thread that waits for this one -/
  parent : Option Nat := none
  /-- the thread that was started by the host -/
  root : Nat

inductive Turn where
  | step (thread : Nat)
  /-- the thread tells its parent that it has finished -/
  | report (thread : Nat)
  deriving DecidableEq, Repr

structure World (σ : Type) where
  shared : Shared σ
  threads : List (Thread σ) := []
  turns : List Turn := []

namespace World
variable {σ : Type}

def setState (w : World σ) (i : Nat) (state : ThreadState σ) : World σ :=
  { w with threads := w.threads.modify i fun t => { t with state } }

def state? (w : World σ) (i : Nat) : Option (ThreadState σ) :=
  match w.threads[i]? with
  | some t => some t.state
  | none => none

def finish? (w : World σ) (i : Nat) : Option Finish :=
  match w.state? i with
  | some (.finished r) => some r
  | _ => none

/-- What a finished listener ended with. -/
def resultOf (w : World σ) (i : Nat) : Except Fault Value :=
  match w.state? i with
  | some (.finished (.value r)) => r
  | _ => .ok .none

/-- Starts tasks on behalf of a thread, which then waits for them. -/
def spawn (w : World σ) (i root : Nat) (tasks : List (Engine σ (Except Fault Value)))
    (next : Except Fault (List (Except Fault Value)) → Task σ) : World σ :=
  let children := List.range' w.threads.length tasks.length
  let started := tasks.map fun t =>
    { state := .running (t.bind fun r => .done (.value r)), parent := some i, root }
  let w := w.setState i (.joining children children.length false next)
  { w with threads := w.threads ++ started, turns := w.turns ++ children.map .step }

/-- The thread whose turn it is takes a step; it keeps its turn while it runs on. -/
def stepThread (env : Surroundings σ) (w : World σ) (i : Nat) (rest : List Turn) : World σ :=
  match w.threads[i]? with
  | none => { w with turns := rest }
  | some thread =>
    match thread.state with
    | .running task =>
      match task.step env w.shared with
      | .go task shared => { w with shared, threads := (w.setState i (.running task)).threads }
      | .wait next => { w.setState i (.waiting next) with turns := rest }
      | .spawn [] next => w.setState i (.running (next (.ok [])))
      | .spawn tasks next => { w with turns := rest }.spawn i thread.root tasks next
      | .stop r =>
        let turns := if thread.parent.isSome then rest ++ [.report i] else rest
        { w.setState i (.finished r) with turns }
    | .joining children 0 cancelled next =>
      let results := if cancelled then .error .cancelled else .ok (children.map w.resultOf)
      w.setState i (.running (next results))
    | _ => { w with turns := rest }

/-- A thread is told that one of its tasks has finished. -/
def hear (w : World σ) (i : Nat) (rest : List Turn) : World σ :=
  match w.state? i with
  | some (.joining children (missing + 1) cancelled next) =>
    let turns := if missing = 0 then rest ++ [.step i] else rest
    { w.setState i (.joining children missing cancelled next) with turns }
  | _ => { w with turns := rest }

/-- The first turn that is due. -/
def tick (env : Surroundings σ) (w : World σ) : World σ :=
  match w.turns with
  | [] => w
  | .step i :: rest => w.stepThread env i rest
  | .report i :: rest =>
    match w.threads[i]? with
    | some { parent := some parent, .. } => w.hear parent rest
    | _ => { w with turns := rest }

/-- Turns until none is due, at most `fuel` of them. -/
def settle (env : Surroundings σ) : Nat → World σ → World σ
  | 0, w => w
  | fuel + 1, w => if w.turns.isEmpty then w else settle env fuel (w.tick env)

/-- Starts a task; the world with it, and its number. -/
def start (w : World σ) (task : Task σ) : World σ × Nat :=
  let i := w.threads.length
  ({ w with threads := w.threads ++ [{ state := .running task, root := i }],
            turns := w.turns ++ [.step i] }, i)

/-- More turns than any task takes. -/
def ample : Nat := 1000000000000

/-- Starts a task and lets all tasks take their turns: what the task has ended with, if it has, and
its number. -/
def run (env : Surroundings σ) (w : World σ) (task : Task σ) : Option Finish × World σ × Nat :=
  let (w, i) := w.start task
  let w := settle env ample w
  (w.finish? i, w, i)

/-- Where a thread that the host started, or one of its own, waits for the host. -/
def waitingFor? (w : World σ) (root : Nat) : Option (Nat × (Except Fault Value → Task σ)) :=
  (w.threads.zipIdx).findSome? fun (t, i) =>
    match t.state with
    | .waiting next => if t.root = root then some (i, next) else none
    | _ => none

/-- The host goes on with a thread that waits for it. -/
def resume (w : World σ) (root : Nat) (answer : Except Fault Value) : World σ :=
  match w.waitingFor? root with
  | none => w
  | some (i, next) => { w.setState i (.running (next answer)) with turns := w.turns ++ [.step i] }

/-- The host cancels a thread that it started, and with it all threads of its own. -/
def cancel (w : World σ) (root : Nat) : World σ :=
  let hit := fun (t : Thread σ) => t.root = root
  let turns := (w.threads.zipIdx).filterMap fun (t, i) =>
    if hit t && t.state.cancel.2 then some (Turn.step i) else none
  { w with threads := w.threads.map fun t => if hit t then { t with state := t.state.cancel.1 } else t,
           turns := w.turns ++ turns }

end World
end ChatCommands
