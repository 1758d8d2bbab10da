import Mathlib
import ChatCommands.Proofs.RunBook

set_option autoImplicit false

/-!
# The tracker and the history

The two tables of the tracker say of every command what the history of the run
says: how many of its runs are under way, and which of them was completed last.
So a command is refused exactly if the history says that it has to be. This
holds whatever tasks run side by side, as long as no callback resets the tracker.
-/
namespace ChatCommands
variable {σ : Type}

/-- The runs that are under way with their threads, the latest first. -/
def openRuns : List Entry → List (Nat × Definition)
  | [] => []
  | .admitted i c _ :: h => (i, c) :: openRuns h
  | .released i _ :: h => (openRuns h).eraseP (·.1 = i)
  | _ :: h => openRuns h

def underWay (name : String) (h : List Entry) : Nat := (openRuns h).countP (·.2.name = name)

def lastRun? (name : String) : List Entry → Option Run
  | [] => none
  | .completed _ c t :: h => if c.name = name then some ⟨c, t⟩ else lastRun? name h
  | _ :: h => lastRun? name h

/-- The command has to be refused. -/
def Blocked (d : Dispatcher) (h : List Entry) (name : String) (now : Binary64) : Prop :=
  0 < d.tracker.window ∧
    ((d.options.trackInFlight = true ∧ ∃ run ∈ openRuns h, run.2.name = name) ∨
      ∃ run, lastRun? name h = some run ∧ (now.sub run.completed).below d.tracker.window = true)

namespace Tracker

theorem running_put (t : Tracker) (name n : String) (k : Nat) :
    running { t with inFlight := t.inFlight.put name k } n = if name = n then k else t.running n := by
  unfold running
  split
  case isTrue same => rw [← same, Assoc.find?_put_self, Option.getD_some]
  case isFalse other => rw [Assoc.find?_put_of_ne _ (Ne.symm other)]

@[simp] theorem running_begin (t : Tracker) (name n : String) :
    (t.begin name).running n = if name = n then t.running n + 1 else t.running n := by
  rw [begin, running_put]
  split <;> simp [*]

@[simp] theorem running_finish (t : Tracker) (name n : String) :
    (t.finish name).running n = if name = n then t.running n - 1 else t.running n := by
  unfold finish
  by_cases more : 1 < t.running name
  · simp only [more, if_true]
    rw [running_put]
    split <;> simp [*]
  · simp only [more, if_false]
    unfold running
    split
    case isTrue same =>
      subst same
      rw [Assoc.find?_erase_self]
      unfold running at more
      simp only [Option.getD_none]
      omega
    case isFalse other => rw [Assoc.find?_erase_of_ne _ (Ne.symm other)]

@[simp] theorem running_reset (t : Tracker) (n : String) : t.reset.running n = 0 := rfl

@[simp] theorem running_record (t : Tracker) (now : Binary64) (command : Definition) (n : String) :
    (t.record now command).running n = t.running n := rfl

def enter (t : Tracker) : Entry → Tracker
  | .admitted _ c _ => t.begin c.name
  | .completed _ c now => t.record now c
  | .released _ name => t.finish name
  | .forgotten => t.reset
  | _ => t

def after (d : Dispatcher) : List Entry → Tracker
  | [] => d.tracker
  | e :: h => (after d h).enter e

@[simp] theorem enter_window (t : Tracker) (e : Entry) : (t.enter e).window = t.window := by
  cases e <;> rfl

@[simp] theorem enter_countsInFlight (t : Tracker) (e : Entry) :
    (t.enter e).countsInFlight = t.countsInFlight := by
  cases e <;> rfl

@[simp] theorem after_window (d : Dispatcher) (h : List Entry) :
    (after d h).window = d.tracker.window := by
  induction h with
  | nil => rfl
  | cons e h ih => simp [after, ih]

@[simp] theorem after_countsInFlight (d : Dispatcher) (h : List Entry) :
    (after d h).countsInFlight = d.options.trackInFlight := by
  induction h with
  | nil => rfl
  | cons e h ih => simp [after, ih]

theorem isBlocked_iff (t : Tracker) (now : Binary64) (name : String) :
    t.isBlocked now name = true ↔ 0 < t.window ∧
      ((t.countsInFlight = true ∧ t.running name ≠ 0) ∨
        ∃ run, t.latestRun? name = some run ∧ (now.sub run.completed).below t.window = true) := by
  unfold isBlocked isBusy isCooling isEnabled
  cases t.latestRun? name <;> simp <;> tauto

def counted (n : Nat) : Option Nat := if n = 0 then none else some n

theorem counted_getD (n : Nat) : (counted n).getD 0 = n := by
  unfold counted
  split <;> simp [*]

theorem running_after {d : Dispatcher} {h : List Entry} {name : String}
    (table : (after d h).inFlight.find? name = counted (underWay name h)) :
    (after d h).running name = underWay name h := by
  rw [running, table, counted_getD]

end Tracker

/-- The entry is one that the thread and the tracker can make after this history. -/
def Allowed (d : Dispatcher) (h : List Entry) : Entry → Prop
  | .received i => bookOf i h = {}
  | .refused _ c now => (Tracker.after d h).isBlocked now c.name = true
  | .admitted i c now => (Tracker.after d h).isBlocked now c.name = false ∧
      ((bookOf i h).Started ∨ (bookOf i h).nested = [])
  | .completed i c _ => (bookOf i h).openRuns.head? = some c
  | .released i name => ∃ c, (bookOf i h).openRuns.head? = some c ∧ c.name = name
  | .forgotten => True

/-- Each entry of the history is one that could be made after those before it. -/
inductive Lawful (d : Dispatcher) : List Entry → Prop where
  | nil : Lawful d []
  | cons {h : List Entry} {e : Entry} (rest : Lawful d h) (allowed : Allowed d h e) :
      Lawful d (e :: h)

theorem Lawful.split {d : Dispatcher} {later earlier : List Entry} {e : Entry}
    (lawful : Lawful d (later ++ e :: earlier)) : Lawful d earlier ∧ Allowed d earlier e := by
  induction later with
  | nil =>
    cases lawful with
    | cons rest allowed => exact ⟨rest, allowed⟩
  | cons _ later ih =>
    cases lawful with
    | cons rest _ => exact ih rest

namespace World
variable {env : Surroundings σ} {permitted : Act σ → Prop} {first w : World σ} {h : List Entry}

/-- What an answer means for the tracker is what it puts into the history. -/
theorem answers_tracker {s s' : Shared σ} {r : EngineRequest σ} {x : r.Answer}
    (answered : Answers env s r x s') (i : Nat) :
    s'.tracker = ((entryOf env s i r).elim s.tracker s.tracker.enter) := by
  cases answered with
  | claimRun c =>
    cases blocked : s.isBlocked env c.name with
    | false => simp [Shared.claimRun, entryOf, blocked, Tracker.enter]
    | true =>
      simp only [Shared.claimRun, entryOf, blocked, if_true]
      split <;> rfl
  | record c =>
    cases unread : env.dispatcher.clock.fault? <;>
      simp [Shared.record, entryOf, unread, Tracker.enter]
  | edit change =>
    simp only [Shared.tryEdit]
    split <;> rfl
  | _ => rfl

theorem entryOf_allowed {s : Shared σ} {r : EngineRequest σ} {i : Nat} {e : Entry}
    (tracker : s.tracker = Tracker.after env.dispatcher h) (allowed : (books σ).allows (bookOf i h) r)
    (made : entryOf env s i r = some e) : Allowed env.dispatcher h e := by
  unfold entryOf at made
  split at made
  case h_1 c =>
    split at made
    case isTrue blocked =>
      cases made
      change (Tracker.after env.dispatcher h).isBlocked _ _ = true
      rwa [← tracker]
    case isFalse free =>
      cases made
      refine ⟨?_, allowed⟩
      rw [← tracker]
      exact Bool.eq_false_iff.2 free
  case h_2 name =>
    cases made
    exact allowed
  case h_3 c =>
    split at made
    · cases made
      exact allowed
    · cases made
  case h_4 =>
    cases made
    trivial
  case h_5 => cases made

theorem act_tracker (w : World σ) (a : Act σ) : (w.act env a).shared.tracker = w.shared.tracker := by
  cases a with
  | answer i x =>
    simp only [act]
    split <;> rfl
  | arrange turns =>
    simp only [act]
    split <;> rfl
  | _ => rfl

/-- The history of a run is lawful, and the tracker is as the history says. -/
theorem Reaches.lawful (start : first.New env) (run : Reaches env permitted first h w) :
    Lawful env.dispatcher h ∧ w.shared.tracker = Tracker.after env.dispatcher h := by
  induction run with
  | start => exact ⟨.nil, start.tracker⟩
  | @tick h w run ih =>
    obtain ⟨lawful, tracker⟩ := ih
    obtain ⟨G', -, ⟨⟨none, same, -⟩ | ⟨i, r, x, made, answered, allowed, -, -⟩⟩⟩ :=
      (run.books start).tick (Book.books_kept env)
    · rw [none, same]
      exact ⟨lawful, tracker⟩
    · have after := answers_tracker answered i
      rw [made, after]
      cases made : entryOf env w.shared i r with
      | none => exact ⟨lawful, tracker⟩
      | some e =>
        exact ⟨.cons lawful (entryOf_allowed tracker allowed made), congrArg (·.enter e) tracker⟩
  | @act h w run a ha ih =>
    obtain ⟨lawful, tracker⟩ := ih
    rw [act_tracker]
    cases a with
    | receive m => exact ⟨.cons lawful ((run.books start).unborn _ le_rfl), tracker⟩
    | _ => exact ⟨lawful, tracker⟩

end World

def runsOf (i : Nat) (runs : List (Nat × Definition)) : List Definition :=
  runs.filterMap fun run => if run.1 = i then some run.2 else none

theorem runsOf_cons (i : Nat) (run : Nat × Definition) (runs : List (Nat × Definition)) :
    runsOf i (run :: runs) = if run.1 = i then run.2 :: runsOf i runs else runsOf i runs := by
  by_cases h : run.1 = i <;> simp [runsOf, h]

theorem mem_runsOf {i : Nat} {c : Definition} {runs : List (Nat × Definition)} :
    c ∈ runsOf i runs ↔ (i, c) ∈ runs := by
  simp only [runsOf, List.mem_filterMap, Option.ite_none_right_eq_some, Option.some.injEq]
  constructor
  · rintro ⟨⟨_, _⟩, mem, rfl, rfl⟩
    exact mem
  · exact fun mem => ⟨(i, c), mem, rfl, rfl⟩

theorem runsOf_eraseP (i j : Nat) (runs : List (Nat × Definition)) :
    runsOf j (runs.eraseP (·.1 = i)) = if i = j then (runsOf j runs).tail else runsOf j runs := by
  induction runs with
  | nil => simp [runsOf]
  | cons run runs ih =>
    by_cases hi : run.1 = i
    · rw [List.eraseP_cons_of_pos (by simpa using hi), runsOf_cons]
      by_cases hj : i = j <;> simp [hi, hj]
    · rw [List.eraseP_cons_of_neg (by simpa using hi), runsOf_cons, runsOf_cons, ih]
      by_cases hj : i = j
      · subst hj
        simp [hi]
      · simp [hj]

theorem countP_eraseP_of_head {i : Nat} {c : Definition} {runs : List (Nat × Definition)}
    (h : (runsOf i runs).head? = some c) (name : String) :
    runs.countP (·.2.name = name) =
      (runs.eraseP (·.1 = i)).countP (·.2.name = name) + if c.name = name then 1 else 0 := by
  induction runs with
  | nil => simp [runsOf] at h
  | cons run runs ih =>
    rw [runsOf_cons] at h
    by_cases hi : run.1 = i
    · rw [List.eraseP_cons_of_pos (by simpa using hi), List.countP_cons]
      rw [if_pos hi, List.head?_cons, Option.some.injEq] at h
      simp [h]
    · rw [List.eraseP_cons_of_neg (by simpa using hi), List.countP_cons, List.countP_cons]
      rw [if_neg hi] at h
      have := ih h
      omega

theorem underWay_admitted (i : Nat) (c : Definition) (now : Binary64) (h : List Entry) (n : String) :
    underWay n (.admitted i c now :: h) = underWay n h + if c.name = n then 1 else 0 := by
  simp [underWay, openRuns, List.countP_cons]

namespace Lawful
variable {d : Dispatcher} {h : List Entry}

/-- The open runs of each thread are those in its book. -/
theorem runsOf_openRuns (lawful : Lawful d h) (i : Nat) :
    runsOf i (openRuns h) = (bookOf i h).openRuns := by
  induction lawful with
  | nil => rfl
  | @cons h e rest allowed ih =>
    by_cases he : e.thread? = some i
    · rw [bookOf, if_pos he]
      cases e with
      | received j =>
        obtain rfl : j = i := Option.some.inj he
        change runsOf j (openRuns h) = []
        rw [ih, show bookOf j h = {} from allowed]
        rfl
      | refused j c now => exact ih.trans (Book.openRuns_claim_false _ c).symm
      | admitted j c now =>
        obtain rfl : j = i := Option.some.inj he
        rw [openRuns, runsOf_cons, if_pos rfl, ih, Book.enter, Book.openRuns_claim c allowed.2]
      | completed j c now => exact ih.trans (Book.openRuns_complete _).symm
      | released j name =>
        obtain rfl : j = i := Option.some.inj he
        rw [openRuns, runsOf_eraseP, if_pos rfl, ih, Book.enter, Book.openRuns_release]
      | forgotten => cases he
    · rw [bookOf, if_neg he]
      cases e with
      | admitted j c now =>
        have hj : j ≠ i := fun h => he (congrArg some h)
        rw [openRuns, runsOf_cons, if_neg hj, ih]
      | released j name =>
        have hj : j ≠ i := fun h => he (congrArg some h)
        rw [openRuns, runsOf_eraseP, if_neg hj, ih]
      | _ => exact ih

theorem underWay_released (lawful : Lawful d h) {i : Nat} {name : String}
    (allowed : Allowed d h (.released i name)) (n : String) :
    underWay n h = underWay n (.released i name :: h) + if name = n then 1 else 0 := by
  obtain ⟨c, head, rfl⟩ := allowed
  rw [← lawful.runsOf_openRuns] at head
  exact countP_eraseP_of_head head n

theorem inFlight (lawful : Lawful d h) (kept : .forgotten ∉ h) (n : String) :
    (Tracker.after d h).inFlight.find? n = Tracker.counted (underWay n h) := by
  induction lawful generalizing n with
  | nil => rfl
  | @cons h e rest allowed ih =>
    replace ih := fun name => ih (fun mem => kept (List.mem_cons_of_mem _ mem)) name
    cases e with
    | admitted i c now =>
      change ((Tracker.after d h).inFlight.put c.name _).find? n = _
      rw [Tracker.running_after (ih c.name), underWay_admitted]
      by_cases same : c.name = n
      · subst same
        simp [Assoc.find?_put_self, Tracker.counted]
      · rw [Assoc.find?_put_of_ne _ (Ne.symm same), ih, if_neg same, Nat.add_zero]
    | released i name =>
      have count := rest.underWay_released allowed n
      change ((Tracker.after d h).finish name).inFlight.find? n = _
      simp only [Tracker.finish, Tracker.running_after (ih name)]
      by_cases same : name = n
      · subst same
        rw [if_pos rfl] at count
        split
        case isTrue more =>
          rw [Assoc.find?_put_self, count, Nat.add_sub_cancel]
          rw [Tracker.counted, if_neg (by omega)]
        case isFalse last =>
          rw [Assoc.find?_erase_self, Tracker.counted, if_pos (by omega)]
      · rw [if_neg same, Nat.add_zero] at count
        rw [← count, ← ih]
        split
        · exact Assoc.find?_put_of_ne _ (Ne.symm same) _
        · exact Assoc.find?_erase_of_ne _ (Ne.symm same)
    | forgotten => exact absurd List.mem_cons_self kept
    | _ => exact ih n

end Lawful

theorem latestRun?_after {d : Dispatcher} {h : List Entry} (kept : .forgotten ∉ h) (n : String) :
    (Tracker.after d h).latestRun? n = lastRun? n h := by
  induction h with
  | nil => rfl
  | cons e h ih =>
    replace ih := ih fun mem => kept (List.mem_cons_of_mem _ mem)
    cases e with
    | completed i c now =>
      change ((Tracker.after d h).latest.put c.name ⟨c, now⟩).find? n = _
      rw [lastRun?]
      split
      case isTrue same => rw [← same, Assoc.find?_put_self]
      case isFalse other =>
        rw [Assoc.find?_put_of_ne _ (Ne.symm other)]
        exact ih
    | forgotten => exact absurd List.mem_cons_self kept
    | _ => exact ih

theorem underWay_ne_zero {n : String} {h : List Entry} :
    underWay n h ≠ 0 ↔ ∃ run ∈ openRuns h, run.2.name = n := by
  simp [underWay, List.countP_eq_zero]

theorem Lawful.isBlocked_iff {d : Dispatcher} {h : List Entry} (lawful : Lawful d h)
    (kept : .forgotten ∉ h) (n : String) (now : Binary64) :
    (Tracker.after d h).isBlocked now n = true ↔ Blocked d h n now := by
  rw [Tracker.isBlocked_iff, Tracker.running_after (lawful.inFlight kept n), latestRun?_after kept,
    underWay_ne_zero, Tracker.after_window, Tracker.after_countsInFlight, Blocked]

theorem Book.enter_fate {b : Book} (h : b.fate ≠ none) (e : Entry) : (b.enter e).fate ≠ none := by
  rcases b with ⟨_ | fate, nested⟩
  · exact absurd rfl h
  · cases e with
    | received i => simp [enter]
    | refused i c now | admitted i c now =>
      simp only [enter, claim]
      split <;> simp
    | completed i c now | released i name =>
      cases nested <;> cases fate <;> simp [enter, complete, release]
    | forgotten => simp [enter]

theorem bookOf_fate {i : Nat} {h : List Entry} (received : .received i ∈ h) :
    (bookOf i h).fate ≠ none := by
  induction h with
  | nil => cases received
  | cons e h ih =>
    rw [bookOf]
    rcases List.mem_cons.1 received with rfl | earlier
    · simp [Entry.thread?, Book.enter]
    · split
      · exact Book.enter_fate (ih earlier) e
      · exact ih earlier

/-- What the history says of an entry, given those before it. -/
def Decided (d : Dispatcher) (h : List Entry) : Entry → Prop
  | .refused _ c now => Blocked d h c.name now
  | .admitted _ c now => ¬ Blocked d h c.name now
  | .completed i c _ => (runsOf i (openRuns h)).head? = some c
  | .released i name => ∃ c, (runsOf i (openRuns h)).head? = some c ∧ c.name = name
  | _ => True

/-- The tracker, the history and the threads of a world agree. -/
structure Ledger (d : Dispatcher) (h : List Entry) (w : World σ) : Prop where
  inFlight : ∀ n, w.shared.tracker.inFlight.find? n =
    if underWay n h = 0 then none else some (underWay n h)
  latest : ∀ n, w.shared.tracker.latest.find? n = lastRun? n h
  /-- each claim was decided as the history before it says -/
  decided : ∀ later e earlier, h = later ++ e :: earlier → Decided d earlier e
  /-- a thread that has ended has released all its runs, and one that was started for a message has
  ended with what its book says -/
  ended : ∀ i finish, w.state? i = some (.finished finish) → (∀ run ∈ openRuns h, run.1 ≠ i) ∧
    (.received i ∈ h → ∃ m r, finish = .outcome r ∧ Book.rootCourse.Dispatched d m (bookOf i h) r)

theorem Lawful.decided {d : Dispatcher} {h : List Entry} {e : Entry} (lawful : Lawful d h)
    (kept : .forgotten ∉ h) (allowed : Allowed d h e) : Decided d h e := by
  cases e with
  | received i | forgotten => trivial
  | refused i c now => exact (lawful.isBlocked_iff kept _ now).1 allowed
  | admitted i c now =>
    intro blocked
    have := (lawful.isBlocked_iff kept _ now).2 blocked
    simp [allowed.1] at this
  | completed i c now => rwa [Decided, lawful.runsOf_openRuns]
  | released i name =>
    obtain ⟨c, head, same⟩ := allowed
    exact ⟨c, by rwa [lawful.runsOf_openRuns], same⟩

namespace World
variable {env : Surroundings σ} {permitted : Act σ → Prop} {first w : World σ} {h : List Entry}

theorem Reaches.ledger (start : first.New env) (run : Reaches env permitted first h w)
    (kept : .forgotten ∉ h) : Ledger env.dispatcher h w where
  inFlight n := by
    obtain ⟨lawful, tracker⟩ := run.lawful start
    rw [tracker]
    exact lawful.inFlight kept n
  latest n := by
    rw [(run.lawful start).2]
    exact latestRun?_after kept n
  decided := by
    rintro later e earlier rfl
    obtain ⟨lawful, allowed⟩ := (run.lawful start).1.split
    exact lawful.decided (fun mem => kept (by simp [mem])) allowed
  ended := by
    intro i finish hs
    have closed : Book.Closed env.dispatcher (bookOf i h) finish := (run.books start).threads i _ hs
    refine ⟨?_, fun received => ?_⟩
    · rintro ⟨j, c⟩ mem rfl
      have listed := mem_runsOf.2 mem
      rw [(run.lawful start).1.runsOf_openRuns, closed.openRuns] at listed
      cases listed
    · rcases closed with empty | dispatched
      · exact absurd (by rw [empty]) (bookOf_fate received)
      · exact dispatched

/-- Whatever tasks run side by side, the tracker says what the history says, and each dispatch goes
through its stages whatever its callbacks do. -/
theorem tracker_matches_history (env : Surroundings σ) {first w : World σ} {h : List Entry}
    (start : first.New env) (run : Reaches env (fun _ => True) first h w) (kept : .forgotten ∉ h) :
    Ledger env.dispatcher h w ∧ ∀ m t r, (env.dispatcher.process env.host m).Traces t r →
      RunEvent.course.Dispatched env.dispatcher m (RunEvent.ofTrace t) r :=
  ⟨run.ledger start kept, fun m _ _ trace => RunEvent.dispatched env.dispatcher env.host m trace⟩

/-- A dispatcher with one command, which does nothing. -/
def pingDispatcher : Dispatcher where
  options := { cooldown := some 1000, trackInFlight := true }
  registry := ⟨[{ definition := { name := "ping" }, execute := some (.fixed (.ok .none)) }]⟩

def pingEnv : Surroundings Unit where
  host := Host.silent
  dispatcher := pingDispatcher

def pingWorld (clock : Binary64) : World Unit where
  shared := { host := (), clock, tracker := pingDispatcher.tracker }

def ping : Message where
  content := some "ping"
  reply := .closed

theorem pingWorld_new (clock : Binary64) : (pingWorld clock).New pingEnv := ⟨rfl, rfl, rfl⟩

/-- The history and the world when the message has been dispatched at a time. -/
def pinged (clock : Binary64) : List Entry × World Unit :=
  (pingWorld clock).dispatch pingEnv ping 9 []

theorem pinged_reached (clock : Binary64) :
    Reaches pingEnv (fun _ => True) (pingWorld clock) (pinged clock).1 (pinged clock).2 :=
  Reaches.start.dispatch ping 9 trivial

theorem tracker_matches_pinged : (pinged default).1.length = 4 ∧
    Ledger pingDispatcher (pinged default).1 (pinged default).2 :=
  ⟨by decide +kernel, (tracker_matches_history pingEnv (pingWorld_new default)
    (pinged_reached default) (by decide +kernel)).1⟩

end World
end ChatCommands
