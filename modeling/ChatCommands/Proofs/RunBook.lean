import Mathlib
import ChatCommands.Proofs.DispatchCourse

set_option autoImplicit false

/-!
# The books of a thread

A thread's book tells what has become of the message that the thread was started
for, and which runs the thread has begun since in dispatches that callbacks asked
for. Those are nested in each other, so that they end in the reverse order. Every
thread keeps to its book in every run, and the history of the run gives the book.
-/
namespace ChatCommands
variable {σ : Type}

/-- What has become of the message that a thread was started for. -/
inductive Fate where
  | unclaimed
  | refused (command : Definition)
  | admitted (command : Definition)
  | completed (command : Definition)
  | failed (command : Definition)
  | succeeded (command : Definition)
  deriving DecidableEq, Repr

/-- The book of a thread. One that was not started for a message has no fate. -/
structure Book where
  fate : Option Fate := none
  /-- runs that callbacks began and that are under way, the innermost first -/
  nested : List Definition := []
  deriving DecidableEq, Repr

def Fate.run? : Fate → Option Definition
  | .admitted c | .completed c => some c
  | _ => none

namespace Book

/-- The runs of the thread that are under way, the innermost first. -/
def openRuns (b : Book) : List Definition := b.nested ++ (b.fate.bind Fate.run?).toList

/-- The thread's own message, if there is one, has got past its admission. -/
def Started (b : Book) : Prop := b.fate ≠ some .unclaimed

def claim (b : Book) (c : Definition) (admitted : Bool) : Book :=
  if b.fate = some .unclaimed then ⟨some (if admitted then .admitted c else .refused c), b.nested⟩
  else if admitted then ⟨b.fate, c :: b.nested⟩ else b

def complete (b : Book) : Book :=
  match b.nested, b.fate with
  | [], some (.admitted c) => ⟨some (.completed c), []⟩
  | _, _ => b

def release (b : Book) : Book :=
  match b.nested, b.fate with
  | _ :: nested, fate => ⟨fate, nested⟩
  | [], some (.admitted c) => ⟨some (.failed c), []⟩
  | [], some (.completed c) => ⟨some (.succeeded c), []⟩
  | [], _ => b

theorem started_empty : ({} : Book).Started := by simp [Started]

theorem openRuns_claim {b : Book} (c : Definition) (h : b.Started ∨ b.nested = []) :
    (b.claim c true).openRuns = c :: b.openRuns := by
  unfold claim
  split
  case isTrue unclaimed =>
    rcases h with started | nested
    · exact absurd unclaimed started
    · simp [openRuns, nested, unclaimed, Fate.run?]
  case isFalse => simp [openRuns]

theorem openRuns_claim_false (b : Book) (c : Definition) :
    (b.claim c false).openRuns = b.openRuns := by
  unfold claim
  split
  case isTrue unclaimed => simp [openRuns, unclaimed, Fate.run?]
  case isFalse => rfl

theorem openRuns_complete (b : Book) : b.complete.openRuns = b.openRuns := by
  unfold complete
  split
  case h_1 nested fate => simp [openRuns, nested, fate, Fate.run?]
  case h_2 => rfl

theorem openRuns_release (b : Book) : b.release.openRuns = b.openRuns.tail := by
  rcases b with ⟨fate, _ | ⟨c, nested⟩⟩
  · rcases fate with _ | fate
    · rfl
    · cases fate <;> rfl
  · rfl

/-- A dispatch that a callback asks for leaves the book as it was. -/
def nestedCourse (b : Book) : Course Book where
  before := b
  refused _ := b
  admitted c := ⟨b.fate, c :: b.nested⟩
  completed c := ⟨b.fate, c :: b.nested⟩
  failed _ := b
  succeeded _ := b

/-- The dispatch of the message that the thread was started for. -/
def rootCourse : Course Book where
  before := ⟨some .unclaimed, []⟩
  refused c := ⟨some (.refused c), []⟩
  admitted c := ⟨some (.admitted c), []⟩
  completed c := ⟨some (.completed c), []⟩
  failed c := ⟨some (.failed c), []⟩
  succeeded c := ⟨some (.succeeded c), []⟩

/-- A thread that has ended has no run under way, and its book tells what it has ended with. -/
def Closed (d : Dispatcher) (b : Book) (finish : Finish) : Prop :=
  b = {} ∨ ∃ m r, finish = .outcome r ∧ rootCourse.Dispatched d m b r

theorem Closed.openRuns {d : Dispatcher} {b : Book} {finish : Finish} (h : Closed d b finish) :
    b.openRuns = [] := by
  rcases h with rfl | ⟨m, r, -, dispatched⟩
  · rfl
  · cases dispatched with
    | ignored b h => rfl
    | ended h ended =>
      have rests := ended.rests
      simp only [rootCourse, List.mem_cons, List.not_mem_nil, or_false] at rests
      rcases rests with rfl | rfl | rfl <;> rfl

end Book

/-- Runs end from the innermost on, and only the innermost one is remembered. -/
def books (σ : Type) : Discipline (engineInterface σ) Book where
  allows b
    | .claimRun _ => b.Started ∨ b.nested = []
    | .finish name => ∃ c, b.openRuns.head? = some c ∧ c.name = name
    | .record c => b.openRuns.head? = some c
    | .effect (.note _) => True
    | _ => b.Started
  expects _ _ _ := True
  next b r x := match r, x with
    | .claimRun c, admitted => b.claim c admitted
    | .finish _, _ => b.release
    | .record _, .ok _ => b.complete
    | _, _ => b

namespace Book

theorem books_untracked {b : Book} (hb : b.Started) {r : EngineRequest σ} (h : r.Untracked) :
    (books σ).allows b r ∧ ∀ x, (books σ).next b r x = b := by
  cases r with
  | claimRun c | finish name | record c => exact h.elim
  | effect e =>
    refine ⟨?_, fun _ => rfl⟩
    cases e with
    | note n => trivial
    | _ => exact hb
  | _ => exact ⟨hb, fun _ => rfl⟩

theorem follows_untracked {α : Type} {b : Book} (hb : b.Started) {p : Engine σ α}
    (hp : Untracked p) : p.Follows (books σ) (fun b' _ => b' = b) b :=
  hp.follows b (fun _ h => (books_untracked hb h).1) fun _ x h => (books_untracked hb h).2 x

theorem nestedCourse_sound {b : Book} (hb : b.Started) : (nestedCourse b).Sound (books σ) where
  notes _ := ⟨trivial, rfl⟩
  claims _ := .inl hb
  refuses c := by simp [books, claim, nestedCourse, show b.fate ≠ _ from hb]
  admits c := by simp [books, claim, nestedCourse, show b.fate ≠ _ from hb]
  records _ := rfl
  completes _ := rfl
  timeless _ _ := rfl
  releases c := ⟨⟨c, rfl, rfl⟩, ⟨c, rfl, rfl⟩⟩
  fails _ := rfl
  succeeds _ := rfl
  passes c s hs r hr := by
    refine books_untracked ?_ hr
    simp only [nestedCourse, List.mem_cons, List.not_mem_nil, or_false] at hs
    rcases hs with rfl | rfl | rfl | rfl <;> exact hb

theorem rootCourse_sound : rootCourse.Sound (books σ) where
  notes _ := ⟨trivial, rfl⟩
  claims _ := .inr rfl
  refuses _ := rfl
  admits _ := rfl
  records _ := rfl
  completes _ := rfl
  timeless _ _ := rfl
  releases c := ⟨⟨c, rfl, rfl⟩, ⟨c, rfl, rfl⟩⟩
  fails _ := rfl
  succeeds _ := rfl
  passes c s hs r hr := by
    refine books_untracked ?_ hr
    simp only [rootCourse, List.mem_cons, List.not_mem_nil, or_false] at hs
    rcases hs with rfl | rfl | rfl | rfl <;> simp [Started]

theorem follows_nested (d : Dispatcher) (host : Host σ) (m : Message) {b : Book} (hb : b.Started) :
    (d.process host m).Follows (books σ) (fun b' _ => b' = b) b := by
  refine (Dispatcher.follows_process (nestedCourse_sound hb) d host m).mono ?_
  intro s r h
  cases h with
  | ignored => rfl
  | ended _ ended => simpa [nestedCourse] using ended.rests

theorem books_kept (env : Surroundings σ) :
    (books σ).Kept env {} (Closed env.dispatcher) fun _ => True where
  answered _ _ := trivial
  expanded := by
    intro b r p expands allowed
    refine Program.Follows.mono (Q := fun b' _ => b' = b) ?_ fun _ _ h => ⟨trivial, h⟩
    cases expands with
    | dispatch m => exact follows_nested env.dispatcher env.host m allowed
    | emit event arguments options h =>
      exact follows_untracked allowed (Event.untracked_emit env.host _ _ _)
    | sweep phase event index context =>
      exact follows_untracked allowed (Event.untracked_sweepFrom env.host _ _ _ _)
  expandStill := by
    intro b r p x expands
    cases expands <;> rfl
  waitStill _ _ := rfl
  notifyStill _ _ _ _ _ := rfl
  listened := by
    intro b listeners arguments options _ p hp
    obtain ⟨h, -, rfl⟩ := List.mem_map.1 hp
    have untracked := (Engine.within_runScript
      (Script.within_all (env.host.listener h arguments options))).untracked
    refine (follows_untracked started_empty untracked).mono ?_
    rintro _ _ rfl
    exact .inl rfl
  heard _ _ := trivial
  returned _ := trivial
  silent := trivial

end Book

def Entry.thread? : Entry → Option Nat
  | .received i | .refused i _ _ | .admitted i _ _ | .completed i _ _ | .released i _ => some i
  | .forgotten => none

def Book.enter (b : Book) : Entry → Book
  | .received _ => ⟨some .unclaimed, []⟩
  | .refused _ c _ => b.claim c false
  | .admitted _ c _ => b.claim c true
  | .completed .. => b.complete
  | .released .. => b.release
  | .forgotten => b

def bookOf (i : Nat) : List Entry → Book
  | [] => {}
  | e :: h => if e.thread? = some i then (bookOf i h).enter e else bookOf i h

theorem bookOf_cons {e : Entry} {i : Nat} (he : e.thread? = some i) (h : List Entry) :
    (fun j => bookOf j (e :: h)) =
      Function.update (fun j => bookOf j h) i ((bookOf i h).enter e) := by
  funext j
  by_cases hj : j = i
  · subst hj
    simp [bookOf, he]
  · have : e.thread? ≠ some j := by simp [he, Ne.symm hj]
    simp [bookOf, hj, this]

namespace World
variable {env : Surroundings σ} {permitted : Act σ → Prop} {first w : World σ} {h : List Entry}

/-- What the next turn means for the books is what it puts into the history. -/
theorem update_books (i : Nat) {s s' : Shared σ} {r : EngineRequest σ} {x : r.Answer}
    (answered : Answers env s r x s') (h : List Entry) :
    Function.update (fun j => bookOf j h) i ((books σ).next (bookOf i h) r x) =
      fun j => bookOf j ((entryOf env s i r).toList ++ h) := by
  cases answered with
  | claimRun c =>
    cases blocked : s.isBlocked env c.name with
    | false =>
      simp only [Shared.claimRun, entryOf, blocked]
      exact (bookOf_cons (e := .admitted i c (s.time env)) rfl h).symm
    | true =>
      simp only [Shared.claimRun, entryOf, blocked]
      exact (bookOf_cons (e := .refused i c (s.time env)) rfl h).symm
  | finish name => exact (bookOf_cons (e := .released i name) rfl h).symm
  | record c =>
    cases unread : env.dispatcher.clock.fault? with
    | none =>
      simp only [Shared.record, entryOf, unread]
      exact (bookOf_cons (e := .completed i c (s.time env)) rfl h).symm
    | some f =>
      simp only [Shared.record, entryOf, unread]
      exact Function.update_eq_self i _
  | _ => exact Function.update_eq_self i _

structure New (env : Surroundings σ) (w : World σ) : Prop where
  threads : w.threads = []
  turns : w.turns = []
  tracker : w.shared.tracker = env.dispatcher.tracker

theorem New.state? (start : first.New env) (i : Nat) : first.state? i = none := by
  simp [state?_eq, start.threads]

/-- In every run each thread keeps to the book that the history gives it. -/
theorem Reaches.books (start : first.New env) (run : Reaches env permitted first h w) :
    w.Follows (books σ) {} (Book.Closed env.dispatcher) fun i => bookOf i h := by
  induction run with
  | start =>
    refine ⟨fun i st hs => ?_, fun _ _ => rfl⟩
    rw [start.state?] at hs
    cases hs
  | @tick h w run ih =>
    obtain ⟨G, follows, ⟨⟨none, -, rfl⟩ | ⟨i, r, x, noted, answered, -, -, rfl⟩⟩⟩ :=
      ih.tick (Book.books_kept env)
    · simpa [none] using follows
    · rw [noted]
      rwa [update_books i answered h] at follows
  | @act h w run a ha ih =>
    cases a with
    | receive m =>
      have follows := Dispatcher.follows_process Book.rootCourse_sound env.dispatcher env.host m
      have started := ih.start (follows.bind (f := fun r => .done (.outcome r))
        (R := Book.Closed env.dispatcher) fun b r dispatched => .inr ⟨m, r, rfl, dispatched⟩)
      exact (bookOf_cons (e := .received w.threads.length) rfl h) ▸ started
    | perform script =>
      have follows := Book.follows_untracked Book.started_empty
        (Engine.within_runScript script.within_all).untracked
      have started := ih.start (follows.bind (f := fun r => .done (.value r))
        (R := Book.Closed env.dispatcher) fun b r same => .inl same)
      have unborn : bookOf w.threads.length h = {} := ih.unborn _ le_rfl
      rw [← unborn, Function.update_eq_self, unborn] at started
      exact started
    | answer i x => exact ih.answer (Book.books_kept env).toSteady fun _ _ => trivial
    | cancel root =>
      exact ih.cancel (Book.books_kept env).toSteady root (fun _ _ => trivial) fun _ _ _ _ _ => trivial
    | arrange turns => exact ih.arrange turns
    | adjust change => exact ih.adjust change

end World
end ChatCommands
