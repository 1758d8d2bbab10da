import Mathlib
import ChatCommands.Proofs.HostRequests
import ChatCommands.Proofs.DispatchCourse

set_option autoImplicit false

/-!
# Concurrent calls

Any number of messages are dispatched side by side. At each step one of the calls
makes its next request: if it concerns the runs of commands, the cooldowns answer
it, and otherwise the surroundings do, which comprises all that callbacks do. The
clock may change between steps. A dispatch concerns one command only, so that the
steps of dispatches of other commands can be left out: what the cooldowns know of
the command stays the same at each remaining step, and so does each result.
-/
namespace ChatCommands
variable {ι σ α : Type}

/-- Messages that are dispatched side by side. -/
structure Scene (ι σ : Type) where
  tracker : Tracker
  /-- the time by which cooldowns are measured -/
  now : Binary64
  /-- what is left of each call -/
  calls : ι → Engine σ (Except Fault Outcome)

inductive Occurrence (ι σ : Type) where
  /-- a call makes its next request, which the surroundings would answer like this -/
  | step (call : ι) (given : (r : EngineRequest σ) → r.Answer)
  | time (now : Binary64)

/-- The answer to a request and the cooldowns after it. What does not concern them is answered by the
surroundings. -/
def Tracker.serve (t : Tracker) (clock : Clock) (now : Binary64)
    (given : (r : EngineRequest σ) → r.Answer) : (r : EngineRequest σ) → r.Answer × Tracker
  | .claimRun c => if t.isBlocked now c.name then (false, t) else (true, t.begin c.name)
  | .finish name => ((), t.finish name)
  | .record c =>
    match clock.fault? with
    | some f => (.error f, t)
    | none => (.ok (), t.record now c)
  | .effect .resetCooldowns => ((), t.reset)
  | r => (given r, t)

namespace Scene

/-- Every message is about to be dispatched. -/
def start (env : Surroundings σ) (message : ι → Message) (tracker : Tracker) (now : Binary64) :
    Scene ι σ where
  tracker
  now
  calls k := env.dispatcher.process env.host (message k)

/-- The cooldowns are to be forgotten. -/
def resets (s : Scene ι σ) : Occurrence ι σ → Bool
  | .time _ => false
  | .step k _ =>
    match s.calls k with
    | .ask (.effect .resetCooldowns) _ => true
    | _ => false

theorem resets_of_ask {s : Scene ι σ} {k : ι} {given : (r : EngineRequest σ) → r.Answer} {r : EngineRequest σ}
    {more : r.Answer → Engine σ (Except Fault Outcome)} (h : s.calls k = .ask r more)
    (kept : r ≠ .effect .resetCooldowns) : s.resets (.step k given) = false := by
  simp only [resets, h]
  split
  case h_1 asks =>
    cases asks
    exact absurd rfl kept
  case h_2 => rfl

variable [DecidableEq ι]

def next (clock : Clock) (s : Scene ι σ) : Occurrence ι σ → Scene ι σ
  | .time now => { s with now }
  | .step k given =>
    match s.calls k with
    | .done _ => s
    | .ask r next =>
      let (x, tracker) := s.tracker.serve clock s.now given r
      { s with tracker, calls := Function.update s.calls k (next x) }

def after (clock : Clock) (s : Scene ι σ) (os : List (Occurrence ι σ)) : Scene ι σ := os.foldl (next clock) s

/-- At no time are the cooldowns to be forgotten. -/
def Unreset (clock : Clock) : Scene ι σ → List (Occurrence ι σ) → Prop
  | _, [] => True
  | s, o :: os => s.resets o = false ∧ Unreset clock (s.next clock o) os

instance decidableUnreset (clock : Clock) :
    (s : Scene ι σ) → (os : List (Occurrence ι σ)) → Decidable (s.Unreset clock os)
  | _, [] => .isTrue trivial
  | s, o :: os =>
    have := decidableUnreset clock (s.next clock o) os
    inferInstanceAs (Decidable (s.resets o = false ∧ Unreset clock (s.next clock o) os))

variable {clock : Clock} {s : Scene ι σ}

@[simp] theorem after_nil : s.after clock [] = s := rfl

@[simp] theorem after_cons (o : Occurrence ι σ) (os : List (Occurrence ι σ)) :
    s.after clock (o :: os) = (s.next clock o).after clock os := rfl

@[simp] theorem after_append (os os' : List (Occurrence ι σ)) :
    s.after clock (os ++ os') = (s.after clock os).after clock os' := List.foldl_append

theorem unreset_append {os os' : List (Occurrence ι σ)} :
    s.Unreset clock (os ++ os') ↔ s.Unreset clock os ∧ (s.after clock os).Unreset clock os' := by
  induction os generalizing s with
  | nil => simp [Unreset]
  | cons o os ih => simp [Unreset, ih, and_assoc]

end Scene

/-- The request concerns no command but this. -/
def EngineRequest.Concerns (name : String) : EngineRequest σ → Prop
  | .claimRun c | .record c => c.name = name
  | .finish other => other = name
  | _ => True

abbrev Concerns (name : String) (p : Engine σ α) : Prop := Program.Uses (EngineRequest.Concerns name) p

theorem Dispatches.concerns {P : Effect σ → Prop} {name : String} {p : Engine σ α}
    (h : Dispatches P name p) : Concerns name p := by
  apply Program.Uses.mono h
  intro r hr
  cases r with
  | claimRun c | finish other | record c => exact hr
  | _ => trivial

theorem Dispatcher.concerns_process (host : Host σ) {d : Dispatcher} {m : Message} {command : Command}
    (invokes : d.invoked? m = some command) : Concerns command.name (d.process host m) :=
  (dispatches_process host.within_all (fun _ _ => Script.within_all _) (fun _ => trivial) invokes).concerns

namespace Tracker
variable {name : String} {t t' u : Tracker} {clock : Clock} {now : Binary64}
  {given : (r : EngineRequest σ) → r.Answer} {r : EngineRequest σ}

/-- The trackers know the same of the command and measure it alike. -/
structure Alike (name : String) (t t' : Tracker) : Prop where
  window : t'.window = t.window
  countsInFlight : t'.countsInFlight = t.countsInFlight
  inFlight : t'.inFlight.find? name = t.inFlight.find? name
  latest : t'.latest.find? name = t.latest.find? name

theorem Alike.refl (name : String) (t : Tracker) : Alike name t t := ⟨rfl, rfl, rfl, rfl⟩

theorem Alike.symm (h : Alike name t t') : Alike name t' t :=
  ⟨h.window.symm, h.countsInFlight.symm, h.inFlight.symm, h.latest.symm⟩

theorem Alike.trans (h : Alike name t t') (h' : Alike name t' u) : Alike name t u :=
  ⟨h'.window.trans h.window, h'.countsInFlight.trans h.countsInFlight, h'.inFlight.trans h.inFlight,
    h'.latest.trans h.latest⟩

theorem Alike.running (h : Alike name t t') : t'.running name = t.running name := by
  rw [Tracker.running, h.inFlight, Tracker.running]

theorem Alike.isBlocked (h : Alike name t t') (now : Binary64) :
    t'.isBlocked now name = t.isBlocked now name := by
  simp only [Tracker.isBlocked, isBusy, isCooling, isEnabled, latestRun?, h.running, h.window,
    h.countsInFlight, h.latest]

/-- The cooldowns of one command do not depend on what is known of the others. -/
theorem Alike.serve (alike : Alike name t t') (clock : Clock) (now : Binary64)
    (given : (r : EngineRequest σ) → r.Answer) (concerns : r.Concerns name)
    (kept : r ≠ .effect .resetCooldowns) :
    (t'.serve clock now given r).1 = (t.serve clock now given r).1 ∧
      Alike name (t.serve clock now given r).2 (t'.serve clock now given r).2 := by
  cases r with
  | claimRun c =>
    obtain rfl : c.name = name := concerns
    simp only [Tracker.serve, alike.isBlocked]
    split
    · exact ⟨rfl, alike⟩
    · refine ⟨rfl, alike.window, alike.countsInFlight, ?_, alike.latest⟩
      simp [begin, Assoc.find?_put_self, alike.running]
  | finish other =>
    obtain rfl : other = name := concerns
    refine ⟨rfl, alike.window, alike.countsInFlight, ?_, alike.latest⟩
    simp only [Tracker.serve, finish, alike.running]
    split <;> simp [Assoc.find?_put_self, Assoc.find?_erase_self]
  | record c =>
    obtain rfl : c.name = name := concerns
    simp only [Tracker.serve]
    split
    · exact ⟨rfl, alike⟩
    · refine ⟨rfl, alike.window, alike.countsInFlight, alike.inFlight, ?_⟩
      simp [record, Assoc.find?_put_self]
  | effect e =>
    cases e with
    | resetCooldowns => exact absurd rfl kept
    | _ => exact ⟨rfl, alike⟩
  | _ => exact ⟨rfl, alike⟩

/-- What concerns another command leaves the entries of this one alone, also when it removes its own. -/
theorem alike_serve {other : String} (concerns : r.Concerns other) (ne : name ≠ other)
    (kept : r ≠ .effect .resetCooldowns) : Alike name t (t.serve clock now given r).2 := by
  cases r with
  | claimRun c =>
    obtain rfl : c.name = other := concerns
    simp only [Tracker.serve]
    split
    · exact .refl name t
    · exact ⟨rfl, rfl, Assoc.find?_put_of_ne _ ne _, rfl⟩
  | finish name' =>
    obtain rfl : name' = other := concerns
    refine ⟨rfl, rfl, ?_, rfl⟩
    simp only [Tracker.serve, finish]
    split
    · exact Assoc.find?_put_of_ne _ ne _
    · exact Assoc.find?_erase_of_ne _ ne
  | record c =>
    obtain rfl : c.name = other := concerns
    simp only [Tracker.serve]
    split
    · exact .refl name t
    · exact ⟨rfl, rfl, rfl, Assoc.find?_put_of_ne _ ne _⟩
  | effect e =>
    cases e with
    | resetCooldowns => exact absurd rfl kept
    | _ => exact .refl name t
  | _ => exact .refl name t

end Tracker

namespace Dispatcher

/-- The message invokes the command of this name. -/
def invokes (d : Dispatcher) (name : String) (m : Message) : Bool :=
  (d.invoked? m).map Command.name == some name

end Dispatcher

/-- The occurrence is a step of a dispatch of the command, or it is none of any dispatch. -/
def Occurrence.remains (d : Dispatcher) (message : ι → Message) (name : String) : Occurrence ι σ → Bool
  | .time _ => true
  | .step k _ => d.invokes name (message k)

namespace Scene
variable {env : Surroundings σ} {message : ι → Message} {name : String} {s s' : Scene ι σ}

/-- The scenes are the same as far as dispatches of the command and their cooldowns go. -/
structure Agrees (d : Dispatcher) (message : ι → Message) (name : String) (s s' : Scene ι σ) : Prop where
  now : s'.now = s.now
  tracker : s.tracker.Alike name s'.tracker
  calls : ∀ k, d.invokes name (message k) = true → s'.calls k = s.calls k

/-- What is left of each call concerns the command that it has invoked. -/
structure Kept (d : Dispatcher) (message : ι → Message) (s : Scene ι σ) : Prop where
  concerns : ∀ k command, d.invoked? (message k) = some command → Concerns command.name (s.calls k)
  idle : ∀ k, d.invoked? (message k) = none → ∃ r, s.calls k = .done r

theorem kept_start (env : Surroundings σ) (message : ι → Message) (tracker : Tracker) (now : Binary64) :
    Kept env.dispatcher message (start env message tracker now) where
  concerns _ _ invokes := Dispatcher.concerns_process env.host invokes
  idle _ none := Dispatcher.process_of_not_invoked env.host none

variable [DecidableEq ι]

theorem next_of_done {clock : Clock} {k : ι} {given : (r : EngineRequest σ) → r.Answer}
    {r : Except Fault Outcome} (h : s.calls k = .done r) : s.next clock (.step k given) = s := by
  simp only [next, h]

theorem next_of_ask {clock : Clock} {k : ι} {given : (r : EngineRequest σ) → r.Answer} {r : EngineRequest σ}
    {more : r.Answer → Engine σ (Except Fault Outcome)} (h : s.calls k = .ask r more) :
    s.next clock (.step k given) =
      { s with tracker := (s.tracker.serve clock s.now given r).2,
               calls := Function.update s.calls k (more (s.tracker.serve clock s.now given r).1) } := by
  simp only [next, h]

theorem Kept.next {d : Dispatcher} (h : Kept d message s) (clock : Clock) (o : Occurrence ι σ) :
    Kept d message (s.next clock o) := by
  cases o with
  | time now => exact ⟨h.concerns, h.idle⟩
  | step k given =>
    cases hk : s.calls k with
    | done r => rwa [next_of_done hk]
    | ask r more =>
      rw [next_of_ask hk]
      refine ⟨fun j command invokes => ?_, fun j none => ?_⟩
      · by_cases same : j = k
        · subst same
          have before := h.concerns j command invokes
          rw [hk] at before
          simpa using before.2 _
        · simpa [same] using h.concerns j command invokes
      · obtain ⟨r', hj⟩ := h.idle j none
        have other : j ≠ k := by
          rintro rfl
          cases hk.symm.trans hj
        exact ⟨r', by simpa [other] using hj⟩

/-- A step of another dispatch can be left out. -/
theorem Agrees.skip {d : Dispatcher} {clock : Clock} (h : Agrees d message name s s')
    (kept : Kept d message s) {k : ι} {given : (r : EngineRequest σ) → r.Answer}
    (other : d.invokes name (message k) = false) (unreset : s.resets (.step k given) = false) :
    Agrees d message name (s.next clock (.step k given)) s' := by
  cases hk : s.calls k with
  | done r => rwa [next_of_done hk]
  | ask r more =>
    rw [next_of_ask hk]
    have reset : r ≠ .effect .resetCooldowns := by
      rintro rfl
      simp [resets, hk] at unreset
    cases invokes : d.invoked? (message k) with
    | none =>
      obtain ⟨r', idle⟩ := kept.idle k invokes
      cases hk.symm.trans idle
    | some command =>
      have concerns := kept.concerns k command invokes
      rw [hk] at concerns
      have ne : name ≠ command.name := by
        rintro rfl
        simp [Dispatcher.invokes, invokes] at other
      refine ⟨h.now, (Tracker.alike_serve concerns.1 ne reset).symm.trans h.tracker, fun j mine => ?_⟩
      have apart : j ≠ k := by
        rintro rfl
        cases mine.symm.trans other
      simpa [apart] using h.calls j mine

/-- A step of the command's own dispatches has the same effect in both scenes. -/
theorem Agrees.both {d : Dispatcher} {clock : Clock} (h : Agrees d message name s s')
    (kept : Kept d message s) {k : ι} {given : (r : EngineRequest σ) → r.Answer}
    (mine : d.invokes name (message k) = true) (unreset : s.resets (.step k given) = false) :
    Agrees d message name (s.next clock (.step k given)) (s'.next clock (.step k given)) := by
  have same := h.calls k mine
  cases hk : s.calls k with
  | done r => rwa [next_of_done hk, next_of_done (same.trans hk)]
  | ask r more =>
    rw [next_of_ask hk, next_of_ask (same.trans hk), h.now]
    have reset : r ≠ .effect .resetCooldowns := by
      rintro rfl
      simp [resets, hk] at unreset
    obtain ⟨command, invokes, rfl⟩ :
        ∃ command, d.invoked? (message k) = some command ∧ command.name = name := by
      simpa [Dispatcher.invokes] using mine
    have concerns := kept.concerns k command invokes
    rw [hk] at concerns
    obtain ⟨answer, tracker⟩ := h.tracker.serve clock s.now given concerns.1 reset
    refine ⟨rfl, tracker, fun j mine => ?_⟩
    by_cases here : j = k
    · subst here
      simp [answer]
    · simpa [here] using h.calls j mine

/-- Leaving out the steps of all other dispatches changes nothing for those of the command. -/
theorem Agrees.after {d : Dispatcher} {clock : Clock} (h : Agrees d message name s s')
    (kept : Kept d message s) {os : List (Occurrence ι σ)} (unreset : s.Unreset clock os) :
    Agrees d message name (s.after clock os) (s'.after clock (os.filter (·.remains d message name))) := by
  induction os generalizing s s' with
  | nil => exact h
  | cons o os ih =>
    obtain ⟨here, later⟩ := unreset
    have kept' := kept.next clock o
    cases o with
    | time now => exact ih ⟨rfl, h.tracker, h.calls⟩ kept' later
    | step k given =>
      cases mine : d.invokes name (message k) with
      | true =>
        rw [List.filter_cons_of_pos (by simpa [Occurrence.remains] using mine)]
        exact ih (h.both kept mine here) kept' later
      | false =>
        rw [List.filter_cons_of_neg (by simpa [Occurrence.remains] using mine)]
        exact ih (h.skip kept mine here) kept' later

end Scene
end ChatCommands
