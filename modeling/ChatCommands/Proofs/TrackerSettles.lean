import Mathlib
import ChatCommands.Proofs.DispatchStages
import ChatCommands.Proofs.ListenerCalls
import ChatCommands.Proofs.RunLedger

set_option autoImplicit false

/-!
# What a dispatch leaves in the tracker

If callbacks leave the dispatcher alone, then nothing but the stages of a dispatch
makes history. The run of an admitted command is begun and ended, so that the runs
under way are what they were, and it is remembered exactly if it has succeeded.
-/
namespace ChatCommands
variable {σ α : Type} {env : Surroundings σ}

/-- The effect neither dispatches a message nor forgets the runs of commands. -/
def Effect.Aloof : Effect σ → Prop
  | .dispatch _ | .resetCooldowns => False
  | _ => True

/-- No callback touches the dispatcher. -/
structure Host.Aloof (host : Host σ) : Prop where
  others : host.Within Effect.Aloof
  execute : ∀ h m c, Script.Within Effect.Aloof (host.execute h m c)

abbrev EngineRequest.Aloof : EngineRequest σ → Prop := EngineRequest.Spares Effect.Aloof

abbrev Engine.Aloof (p : Engine σ α) : Prop := Program.Uses EngineRequest.Aloof p

/-- What an aloof request stands for is aloof. -/
theorem Host.Aloof.expands (aloof : env.host.Aloof) (r : EngineRequest σ) (p : Engine σ r.Answer)
    (h : r.Aloof) (expands : Expands env r p) : p.Aloof := by
  cases expands with
  | dispatch m => exact h.elim
  | emit event arguments options => exact Event.spares_emit aloof.others event arguments options
  | sweep phase event index context =>
    exact Event.spares_sweepFrom aloof.others phase event index context

/-- What the deed puts into the history. -/
def Moment.history? (env : Surroundings σ) (m : Moment σ) : Option Entry :=
  match m.deed with
  | .asks r => entryOf env m.before.shared m.thread r
  | _ => none

/-- The history that comes of what was done, the earliest first. -/
def entries (env : Surroundings σ) (t : List (Moment σ)) : List Entry := t.filterMap (·.history? env)

@[simp] theorem entries_nil : entries env ([] : List (Moment σ)) = [] := rfl

@[simp] theorem entries_append (t u : List (Moment σ)) :
    entries env (t ++ u) = entries env t ++ entries env u := List.filterMap_append

@[simp] theorem entries_cons (m : Moment σ) (t : List (Moment σ)) :
    entries env (m :: t) = (m.history? env).toList ++ entries env t := by
  cases h : m.history? env <;> simp [entries, h]

theorem entries_eq_nil {t : List (Moment σ)} (h : ∀ m ∈ t, m.history? env = none) :
    entries env t = [] := List.filterMap_eq_nil_iff.2 h

theorem Moment.history?_of_asks {m : Moment σ} {r : EngineRequest σ} (h : m.deed = .asks r) :
    m.history? env = entryOf env m.before.shared m.thread r := by
  simp [history?, h]

theorem entryOf_of_aloof {r : EngineRequest σ} (h : r.Aloof) (s : Shared σ) (i : Nat) :
    entryOf env s i r = none := by
  cases r with
  | claimRun c | finish name | record c => exact h.elim
  | effect e =>
    cases e with
    | resetCooldowns => exact h.elim
    | _ => rfl
  | _ => rfl

/-- What plays an aloof program makes no history. -/
theorem Host.Aloof.entries (aloof : env.host.Aloof) {p : Engine σ α} (hp : p.Aloof)
    {t : List (Moment σ)} {o : Option α} (h : Plays env p t o) : entries env t = [] := by
  refine entries_eq_nil fun m hm => ?_
  cases hd : m.deed with
  | asks r =>
    rw [Moment.history?_of_asks hd, entryOf_of_aloof (h.uses aloof.expands hp m hm r hd)]
  | _ => simp [Moment.history?, hd]

namespace Tracker

/-- The tracker after a history, the earliest first. -/
def enterAll (t : Tracker) (es : List Entry) : Tracker := es.foldl Tracker.enter t

@[simp] theorem enterAll_nil (t : Tracker) : t.enterAll [] = t := rfl

@[simp] theorem enterAll_append (t : Tracker) (es fs : List Entry) :
    t.enterAll (es ++ fs) = (t.enterAll es).enterAll fs := List.foldl_append

@[simp] theorem enterAll_cons (t : Tracker) (e : Entry) (es : List Entry) :
    t.enterAll (e :: es) = (t.enter e).enterAll es := rfl

/-- The tracker after a run was remembered, if it was. -/
def remember (t : Tracker) (recorded : Option Run) : Tracker :=
  recorded.elim t fun run => t.record run.completed run.command

/-- A tracker has settled if nothing has changed but the run that is remembered. An entry that counts no
runs, which no tracker makes, may have vanished. -/
structure Settles (t : Tracker) (recorded : Option Run) (t' : Tracker) : Prop where
  window : t'.window = t.window
  countsInFlight : t'.countsInFlight = t.countsInFlight
  latest : t'.latest = recorded.elim t.latest fun run => t.latest.put run.command.name run
  running : ∀ name, t'.running name = t.running name
  inFlight : (∀ name, t.inFlight.find? name ≠ some 0) → t'.inFlight = t.inFlight

theorem settles_self (t : Tracker) : t.Settles none t where
  window := rfl
  countsInFlight := rfl
  latest := rfl
  running _ := rfl
  inFlight _ := rfl

theorem inFlight_finish_begin (t : Tracker) (name : String) (h : t.inFlight.find? name ≠ some 0) :
    ((t.begin name).finish name).inFlight = t.inFlight := by
  have count : (t.begin name).running name = t.running name + 1 := by simp
  rw [finish, count]
  cases found : t.inFlight.find? name with
  | none =>
    have idle : t.running name = 0 := by simp [running, found]
    simpa [idle, begin] using Assoc.erase_put found 1
  | some n =>
    have busy : t.running name = n := by simp [running, found]
    have some : n ≠ 0 := by rintro rfl; exact h found
    simp only [busy, show 1 < n + 1 by omega, if_true, Nat.add_sub_cancel, begin]
    rw [Assoc.put_put, Assoc.put_of_find? found]

/-- A run that is begun and ended leaves the runs under way as they were. -/
theorem settles_run (t : Tracker) (name : String) (recorded : Option Run) :
    t.Settles recorded (((t.begin name).remember recorded).finish name) := by
  -- to remember a run changes nothing about the runs under way
  have same : (((t.begin name).remember recorded).finish name).inFlight =
      ((t.begin name).finish name).inFlight := by
    cases recorded <;> rfl
  refine ⟨?_, ?_, ?_, fun n => ?_, fun none => ?_⟩
  · cases recorded <;> rfl
  · cases recorded <;> rfl
  · cases recorded <;> rfl
  · rw [running, same]
    change ((t.begin name).finish name).running n = _
    rw [running_finish, running_begin]
    split
    case isTrue => exact Nat.add_sub_cancel ..
    case isFalse => rfl
  · rw [same, inFlight_finish_begin t name (none name)]

end Tracker

namespace Dispatcher
variable {m : Message} {command : Command} {tracker : Tracker} {t : List (Moment σ)} {o : Outcome}
  {recorded : Option Run}

theorem aloof_bind (aloof : env.host.Aloof) (parsers : ParserSource) (slots : List Slot)
    (tokens : List String) :
    Engine.Aloof (Argument.bind env.host parsers (some m) slots tokens) :=
  (Argument.within_bindFrom aloof.others parsers (some m) slots [] tokens).spares

theorem aloof_callExecute (aloof : env.host.Aloof) (command : Command) (arguments : Assoc Value) :
    Engine.Aloof (callExecute env.host m command.definition command.execute arguments) :=
  (within_callExecute aloof.others m _ (aloof.execute · m _) _ _).spares

theorem aloof_evaluate (aloof : env.host.Aloof) (command : Command) (guard : Callback)
    (arguments : Assoc Value) :
    Engine.Aloof (Guard.evaluate env.host command.name guard arguments (some m)) :=
  (Guard.within_evaluate aloof.others _ _ _ _).spares

theorem Replied.entries (aloof : env.host.Aloof) {text : String} (h : Replied env m text t) :
    entries env t = [] := by
  cases h with
  | unwanted | impossible => rfl
  | sent wanted channel called =>
    exact aloof.entries (Engine.within_runScript (aloof.others.reply _ text)).spares called
  | failed wanted channel called noted =>
    have quiet := aloof.entries (Engine.within_runScript (aloof.others.reply _ text)).spares called
    simp [quiet, Moment.history?_of_asks noted, entryOf]

theorem Grants.entries (aloof : env.host.Aloof) {arguments arguments' : Assoc Value}
    (h : Grants env m command arguments t arguments') : entries env t = [] := by
  cases h with
  | unguarded => rfl
  | granted guarded evaluated =>
    exact aloof.entries (aloof_evaluate aloof command _ _) evaluated

theorem Ran.enterAll (aloof : env.host.Aloof) (clock : env.dispatcher.clock.fault? = none)
    {arguments : Assoc Value} (h : Ran env m command arguments t o recorded) (tracker : Tracker) :
    tracker.enterAll (entries env t) = tracker.remember recorded := by
  cases h with
  | crashed executed noted =>
    have quiet := aloof.entries (aloof_callExecute aloof command _) executed
    simp [quiet, Moment.history?_of_asks noted, entryOf, Tracker.remember]
  | succeeded executed recorded =>
    have quiet := aloof.entries (aloof_callExecute aloof command _) executed
    simp [quiet, Moment.history?_of_asks recorded, entryOf, clock, Tracker.remember, Tracker.enter]

theorem Attempts.enterAll (aloof : env.host.Aloof) (clock : env.dispatcher.clock.fault? = none)
    {tokens : List String} (h : Attempts env m command tokens t o recorded) (tracker : Tracker) :
    tracker.enterAll (entries env t) = tracker.remember recorded := by
  cases h with
  | refused bound reported replied =>
    simp [aloof.entries (aloof_bind aloof _ _ _) bound, replied.entries aloof, Tracker.remember]
  | denied bound guarded evaluated =>
    simp [aloof.entries (aloof_bind aloof _ _ _) bound, Tracker.remember,
      aloof.entries (aloof_evaluate aloof command _ _) evaluated]
  | ran bound grants ran =>
    simp [aloof.entries (aloof_bind aloof _ _ _) bound, grants.entries aloof, ran.enterAll aloof clock]

theorem history?_of_claim (env : Surroundings σ) {a : Moment σ}
    (claims : a.deed = .asks (.claimRun command.definition))
    (unchanged : a.before.shared.tracker = tracker) : a.history? env = some
      (if tracker.isBlocked (a.before.shared.time env) command.name
        then .refused a.thread command.definition (a.before.shared.time env)
        else .admitted a.thread command.definition (a.before.shared.time env)) := by
  rw [Moment.history?_of_asks claims, entryOf, Shared.isBlocked, unchanged]
  exact (apply_ite some _ _ _).symm

theorem Invokes.settles (aloof : env.host.Aloof) (clock : env.dispatcher.clock.fault? = none)
    {tokens : List String} (h : Invokes env m tracker command tokens t o recorded) :
    tracker.Settles recorded (tracker.enterAll (entries env t)) := by
  cases h with
  | coolingDown claims unchanged blocked =>
    simpa [history?_of_claim env claims unchanged, blocked, Tracker.enter] using tracker.settles_self
  | admitted claims unchanged free attempts released =>
    have claimed := history?_of_claim env claims unchanged
    rw [free] at claimed
    simp only [claimed, entries_cons, entries_append, entries_nil, Moment.history?_of_asks released, entryOf,
      Option.toList_some, Tracker.enterAll_append, Tracker.enterAll_cons, Tracker.enterAll_nil,
      attempts.enterAll aloof clock]
    exact tracker.settles_run command.name recorded

/-- A dispatch leaves nothing in the tracker but the run that it remembers. -/
theorem Staged.settles (aloof : env.host.Aloof) (clock : env.dispatcher.clock.fault? = none)
    (h : Staged env m tracker t o recorded) :
    tracker.Settles recorded (tracker.enterAll (entries env t)) := by
  cases h with
  | unread | unknown => exact tracker.settles_self
  | @invoked i command c e t u _ _ read found noted invokes emits emitted =>
    have quiet := aloof.entries (Event.spares_emit aloof.others _ _ _) emitted
    simpa [Moment.history?_of_asks noted, Moment.history?_of_asks emits, entryOf, quiet]
      using invokes.settles aloof clock

end Dispatcher

namespace World
variable {w w' : World σ} {log : List (Moment σ)} {tracker : Tracker}

/-- The tracker is what the history of the record says, and was so at each request. -/
structure Booked (env : Surroundings σ) (tracker : Tracker) (log : List (Moment σ)) (w : World σ) :
    Prop where
  now : w.shared.tracker = tracker.enterAll (entries env log)
  earlier : ∀ before a after r, log = before ++ a :: after → a.deed = .asks r →
    a.before.shared.tracker = tracker.enterAll (entries env before)

theorem entries_ensuing (w : World σ) (i : Nat) (r : EngineRequest σ) :
    entries env (w.ensuing env i r) = [] := by
  refine entries_eq_nil fun d hd => ?_
  rcases mem_ensuing hd with ⟨-, hears⟩ | ⟨-, _, _, _, begins⟩
  · simp [Moment.history?, hears]
  · simp [Moment.history?, begins]

theorem entries_taken (env : Surroundings σ) (w : World σ) :
    entries env (w.taken env) = (w.nextEntry env).toList := by
  unfold taken nextEntry
  cases w.turns with
  | nil => rfl
  | cons turn rest =>
    cases turn with
    | report i => rfl
    | step i =>
      dsimp only
      cases w.state? i with
      | none => rfl
      | some st =>
        cases st with
        | running p =>
          cases p with
          | done r => rfl
          | ask r next => simp [entries_ensuing, Moment.history?]
        | joining children missing cancelled next => cases missing <;> rfl
        | _ => rfl

theorem tracker_tick (env : Surroundings σ) (w : World σ) : (w.tick env).shared.tracker =
    w.shared.tracker.enterAll (w.nextEntry env).toList := by
  have ticked := tick_ticked env w
  generalize w.tick env = w' at ticked
  cases ticked with
  | rest h | dropReport h | hear h => simp [nextEntry, h, setState]
  | @dropStep i rest h idle =>
    simp only [nextEntry, h]
    cases hs : w.state? i with
    | none => rfl
    | some st => rcases idle st hs with ⟨_, rfl⟩ | ⟨_, rfl⟩ | ⟨_, _, _, _, rfl⟩ <;> rfl
  | @answer i rest r next x s h state answered =>
    simp only [nextEntry, h, state]
    refine (answers_tracker answered i).trans ?_
    cases entryOf env w.shared i r <;> rfl
  | expand h state expands =>
    simp only [nextEntry, h, state]
    cases expands <;> rfl
  | wait h state | notifyNone h state | join h state => simp [nextEntry, h, state, entryOf, setState]
  | spawn h thread state =>
    simp [nextEntry, h, state?_of_thread thread, state, entryOf, World.spawn, setState]
  | stop h thread state => simp [nextEntry, h, state?_of_thread thread, state, setState]

theorem Booked.tick (booked : Booked env tracker log w) :
    Booked env tracker (log ++ w.taken env) (w.tick env) where
  now := by rw [tracker_tick, entries_append, entries_taken, Tracker.enterAll_append, booked.now]
  earlier := by
    intro before a after r split asks
    rcases split_append split with ⟨kept, old, -⟩ | ⟨more, rfl, new⟩
    · exact booked.earlier before a kept r old asks
    · obtain ⟨rfl, -, first⟩ := taken_of_asks (new ▸ by simp : a ∈ w.taken env) asks
      rcases List.cons_eq_append_iff.1 (first.symm.trans new) with ⟨rfl, -⟩ | ⟨more, -, ensues⟩
      · rw [List.append_nil, booked.now]
      · have mem : a ∈ ensuing env a.before a.thread r := ensues ▸ by simp
        exact absurd asks (not_asks_of_mem_ensuing mem)

theorem Booked.act (booked : Booked env tracker log w) (a : Act σ) :
    Booked env tracker (log ++ w.acted env a) (w.act env a) where
  now := by
    have none : entries env (w.acted env a) = [] := by
      refine entries_eq_nil fun d hd => ?_
      rcases mem_acted hd with ⟨p, begins⟩ | ⟨x, resumes⟩
      · simp [Moment.history?, begins]
      · simp [Moment.history?, resumes]
    rw [act_tracker, entries_append, none, List.append_nil, booked.now]
  earlier := by
    intro before d after r split asks
    rcases split_append split with ⟨kept, old, -⟩ | ⟨more, rfl, new⟩
    · exact booked.earlier before d kept r old asks
    · exact absurd asks (not_asks_of_mem_acted (new ▸ by simp : d ∈ w.acted env a))

variable {permitted : Act σ → Prop} {log₀ : List (Moment σ)} {w₀ : World σ}

theorem Records.booked (run : Records env permitted log₀ w₀ log w) (start : Booked env tracker log₀ w₀) :
    Booked env tracker log w := by
  induction run with
  | start => exact start
  | tick run ih => exact ih.tick
  | act run a ha ih => exact ih.act a

end World
end ChatCommands
