import Mathlib
import ChatCommands.Proofs.BuiltInMiddleware
import ChatCommands.Proofs.ConcurrentCalls

set_option autoImplicit false

/-!
# What a tally shows

A tally that comes right after the standard middleware sees each event once, before
any middleware of the host can stop it. If the first argument is the outcome of a
command, then it counts that outcome, whatever the event is called. So it shows how
many such events were emitted since it was last emptied. What is emitted is on its
way to the tally for a few steps, in which nothing else happens, since the standard
middleware wait for nothing.
-/
namespace ChatCommands
variable {σ α : Type}

namespace Tally
variable {t : Tally} {n : String → String → Nat}

/-- The tally has entries for what was counted at least once, and no others. -/
structure Shows (t : Tally) (n : String → String → Nat) : Prop where
  commands : ∀ name, (t.find? name).isSome ↔ ∃ outcome, n name outcome ≠ 0
  outcomes : ∀ name outcome, ((t.find? name).getD []).find? outcome =
    if n name outcome = 0 then none else some (n name outcome)

theorem shows_nil : Shows [] fun _ _ => 0 where
  commands _ := by simp [Assoc.find?]
  outcomes _ _ := rfl

theorem Shows.count (h : t.Shows n) (name outcome : String) : t.count name outcome = n name outcome := by
  rw [Tally.count, h.outcomes]
  split
  · next zero => exact zero.symm
  · rfl

theorem Shows.add (h : t.Shows n) (name outcome : String) :
    (t.add name outcome).Shows fun name' outcome' =>
      n name' outcome' + if (name, outcome) = (name', outcome') then 1 else 0 where
  commands name' := by
    by_cases same : name' = name
    · subst same
      simp only [Tally.add, Assoc.find?_put_self, Option.isSome_some, true_iff]
      exact ⟨outcome, by simp⟩
    · simp [Tally.add, Assoc.find?_put_of_ne _ same, h.commands, Ne.symm same]
  outcomes name' outcome' := by
    by_cases same : name' = name
    · subst same
      rw [Tally.add, Assoc.find?_put_self, Option.getD_some]
      by_cases same : outcome' = outcome
      · subst same
        simp [Assoc.find?_put_self, h.count]
      · simp [Assoc.find?_put_of_ne _ same, h.outcomes, Ne.symm same]
    · simp [Tally.add, Assoc.find?_put_of_ne _ same, h.outcomes, Ne.symm same]

end Tally

/-- Something in the history of a tally. -/
inductive Happening where
  | emitted (event : String) (arguments : List Value)
  | emptied

/-- The command and the outcome that an event with these arguments is about. -/
def Event.reported? (arguments : List Value) : Option (String × String) :=
  match Event.subject arguments with
  | .outcome o => o.command?.map fun d => (d.name, o.kind)
  | _ => none

namespace Happening

/-- The events emitted since the tally was last emptied, the latest first. -/
def since : List Happening → List (String × List Value)
  | [] | .emptied :: _ => []
  | .emitted event arguments :: h => (event, arguments) :: since h

/-- How many events were about this outcome of this command. -/
def reports (h : List Happening) (name outcome : String) : Nat :=
  (since h).countP fun e => Event.reported? e.2 = some (name, outcome)

variable {h : List Happening}

theorem reports_emitted (event : String) (arguments : List Value) (name outcome : String) :
    reports (.emitted event arguments :: h) name outcome =
      reports h name outcome + if Event.reported? arguments = some (name, outcome) then 1 else 0 := by
  simp [reports, since, List.countP_cons]

end Happening

/-- The middleware up to a tally that was added to the standard ones. -/
def Subscribers.upToTally (k : Nat) : List Middleware := standardMiddleware ++ [.tally k]

namespace EngineRequest

/-- What an event that is emitted by this puts into the history. -/
def emits? : EngineRequest σ → Option Happening
  | .effect (.emit event arguments options) =>
    match options.keys.find? (Event.emissionNames.contains ·) with
    | none => some (.emitted event arguments)
    | some _ => none
  | _ => none

theorem emits?_eq_some {r : EngineRequest σ} {x : Happening} :
    r.emits? = some x ↔ ∃ event arguments options, r = .effect (.emit event arguments options) ∧
      options.keys.find? (Event.emissionNames.contains ·) = none ∧ x = .emitted event arguments := by
  constructor
  · intro emits
    unfold emits? at emits
    split at emits
    case h_1 event arguments options =>
      split at emits
      case h_1 free => exact ⟨event, arguments, options, rfl, free, (Option.some.inj emits).symm⟩
      case h_2 => cases emits
    case h_2 => cases emits
  · rintro ⟨event, arguments, options, rfl, free, rfl⟩
    simp only [emits?, free]

/-- On its way to the tally an event asks for this. -/
def Leads : EngineRequest σ → Prop
  | .listeners _ | .seconds | .count .. | .effect (.note (.eventStarted _)) => True
  | .sweep .before _ index _ | .middlewareAt index => index < 3
  | _ => False

/-- The request is none by which an event comes to the tally. -/
def Bystands (k : Nat) : EngineRequest σ → Prop
  | .count number .. => number ≠ k
  | .sweep .before _ index _ => 3 ≤ index
  | _ => True

/-- The answer is not the tally, behind the place where it is. -/
def Passes (k : Nat) : (r : EngineRequest σ) → r.Answer → Prop
  | .middlewareAt index, m => 3 ≤ index → m ≠ some (.tally k)
  | _, _ => True

end EngineRequest

/-- Threads that count nothing in the tally, but for the events that they emit. One that is exempt may do
so. -/
def bystanding (σ : Type) (k : Nat) : Discipline (engineInterface σ) Bool where
  allows exempt r := exempt = true ∨ r.Bystands k
  expects exempt r x := exempt = true ∨ r.Passes k x
  next exempt _ _ := exempt

variable {k : Nat} {env : Surroundings σ}

/-- The program counts nothing in the tally, but for the events that it emits. -/
abbrev Engine.Bystanding (k : Nat) (p : Engine σ α) : Prop :=
  p.Follows (bystanding σ k) (fun _ _ => True) false

theorem follows_exempt (p : Engine σ α) : p.Follows (bystanding σ k) (fun _ _ => True) true := by
  induction p with
  | done a => trivial
  | ask r next ih => exact ⟨.inl rfl, fun x _ => ih x⟩

namespace Engine
variable {β : Type}

theorem Bystanding.bind {p : Engine σ α} {f : α → Engine σ β} (h : p.Bystanding k)
    (rest : ∀ a, (f a).Bystanding k) : Engine.Bystanding k (p.bind f) := by
  refine Program.Follows.bind (h.still fun _ _ _ => rfl) ?_
  rintro _ a ⟨-, rfl⟩
  exact rest a

theorem Bystanding.of_uses {p : Engine σ α} (h : Program.Uses (EngineRequest.Bystands k) p) :
    p.Bystanding k :=
  (h.follows (D := bystanding σ k) false (fun _ bystands => .inr bystands) fun _ _ _ => rfl).mono
    fun _ _ _ => trivial

theorem Effects.bystanding {P : Effect σ → Prop} {p : Engine σ α} (h : p.Effects P) : p.Bystanding k := by
  refine .of_uses (Program.Uses.mono h fun r hr => ?_)
  cases r with
  | effect e => trivial
  | _ => exact hr.elim

theorem bystanding_request {r : EngineRequest σ} (h : r.Bystands k) : (request r).Bystanding k :=
  .of_uses ⟨h, fun _ => trivial⟩

/-- What a bystander's request stands for must be a bystander's program. -/
theorem Bystanding.stands {r : EngineRequest σ} {p : Engine σ r.Answer} (h : p.Bystanding k)
    (passes : ∀ x, r.Passes k x) : (bystanding σ k).Stands false r p :=
  (h.still fun _ _ _ => rfl).mono fun _ x ended => ⟨.inr (passes x), ended.2⟩

end Engine

open Engine

theorem Middleware.bystanding_call {host : Host σ} {phase : Phase} {m : Middleware}
    (other : phase = .before → m ≠ .tally k) (context : EventContext) :
    (m.call host phase context).Bystanding k := by
  by_cases tally : m = .tally k
  · subst tally
    cases phase with
    | before => exact absurd rfl (other rfl)
    | after => trivial
  · refine .of_uses ((serves_call host.within_all phase context m).mono fun r hr => ?_)
    cases r with
    | count number command outcome =>
      rintro rfl
      exact tally hr
    | effect | seconds => trivial
    | _ => exact hr.elim

namespace Event

/-- Sweeps count nothing after the listeners, nor behind the tally. -/
theorem bystanding_sweepFrom {host : Host σ} {phase : Phase} {index : Nat}
    (past : phase = .before → 3 ≤ index) (event : String) (context : EventContext) :
    (sweepFrom host phase event index context).Bystanding k := by
  have next : ∀ context,
      (request (.sweep phase event (index + 1) context) : Engine σ (Except Fault Swept)).Bystanding k := by
    intro context
    apply bystanding_request
    cases phase with
    | before => exact (past rfl).trans (Nat.le_succ index)
    | after => trivial
  refine ⟨.inr trivial, fun m hm => ?_⟩
  cases m with
  | none => trivial
  | some m =>
    have other : phase = .before → m ≠ .tally k := by
      rintro before rfl
      exact (hm.resolve_left nofun) (past before) rfl
    apply (Middleware.bystanding_call other context).bind
    rintro ⟨f | v, context⟩
    · dsimp only
      split
      · exact (effects_note host.within_all _).bystanding.bind fun _ => next _
      · trivial
    · dsimp only
      split
      · exact (effects_note host.within_all _).bystanding.bind fun _ => trivial
      · exact next _

theorem bystanding_deliver (host : Host σ) (event : String) (listeners : List Hook) (arguments : List Value)
    (options : Assoc Value) (context : EventContext) :
    (deliver host event listeners arguments options context).Bystanding k := by
  refine Bystanding.bind ?_ fun results => ?_
  · unfold notify
    split
    · trivial
    · exact bystanding_request (by trivial)
  · cases results with
    | error f => trivial
    | ok results =>
      refine (effects_gatherFaults host.within_all event context _).bystanding.bind fun gathered => ?_
      cases gathered with
      | error f => trivial
      | ok c => exact (bystanding_request (by trivial)).bind fun _ => trivial

end Event

theorem Dispatcher.bystanding_process (d : Dispatcher) (host : Host σ) (m : Message) :
    (d.process host m).Bystanding k := by
  cases invokes : d.invoked? m with
  | none =>
    obtain ⟨r, done⟩ := process_of_not_invoked host invokes
    rw [done]
    trivial
  | some command =>
    have dispatches := dispatches_process host.within_all (fun _ _ => Script.within_all _)
      (fun _ => trivial) invokes
    refine .of_uses (dispatches.mono fun r hr => ?_)
    cases r with
    | effect | claimRun | finish | record => trivial
    | _ => exact hr.elim

theorem bystanding_steady (env : Surroundings σ) :
    (bystanding σ k).Steady env false (fun _ _ => True) fun _ => True where
  expandStill _ _ := rfl
  waitStill _ _ := rfl
  notifyStill _ _ _ _ _ := rfl
  listened _ p hp := by
    obtain ⟨h, -, rfl⟩ := List.mem_map.1 hp
    exact (effects_runScript (env.host.within_all.listener h _ _)).bystanding
  heard _ _ := .inr trivial
  returned _ := trivial
  silent := trivial

namespace Subscribers
variable {s : Subscribers}

/-- The standard middleware come first and then the tally, and it is there only once. -/
def Equipped (k : Nat) (s : Subscribers) : Prop :=
  s.middleware.take 3 = upToTally k ∧ .tally k ∉ s.middleware.drop 3

instance (k : Nat) (s : Subscribers) : Decidable (s.Equipped k) :=
  inferInstanceAs (Decidable (_ ∧ _))

theorem Equipped.early (h : s.Equipped k) {index : Nat} (early : index < 3) :
    s.middleware[index]? = (upToTally k)[index]? := by
  rw [← h.1, List.getElem?_take_of_lt early]

theorem Equipped.behind (h : s.Equipped k) {index : Nat} (behind : 3 ≤ index) :
    s.middleware[index]? ≠ some (.tally k) := by
  intro found
  obtain ⟨later, rfl⟩ := Nat.exists_eq_add_of_le behind
  rw [← List.getElem?_drop] at found
  exact h.2 (List.mem_of_getElem? found)

end Subscribers

open Event

/-- The task has emitted an event that is still on its way to the tally. If it is about the outcome of a
command, then this is still to be counted. -/
inductive Task.Owes (k : Nat) : Option (String × String) → Task σ → Prop where
  | lookUp {o : Option (String × String)} {event : String} {next : List Hook → Task σ}
      (rest : ∀ hooks, Owes k o (next hooks)) : Owes k o (.ask (.listeners event) next)
  | sweep {arguments : List Value} {event : String} {index : Nat} {context : EventContext}
      {next : Except Fault Swept → Task σ} (early : index < 3) (legible : Legible arguments context)
      (unmarked : isStopped context = false) (rest : ∀ x, (next x).Bystanding k) :
      Owes k (reported? arguments) (.ask (.sweep .before event index context) next)
  | fetch {o : Option (String × String)} {index : Nat} {next : Option Middleware → Task σ}
      (early : index < 3) (rest : Owes k o (next (Subscribers.upToTally k)[index]?)) :
      Owes k o (.ask (.middlewareAt index) next)
  | time {o : Option (String × String)} {next : Binary64 → Task σ} (rest : ∀ now, Owes k o (next now)) :
      Owes k o (.ask .seconds next)
  | note {o : Option (String × String)} {event : Value} {next : Unit → Task σ} (rest : Owes k o (next ())) :
      Owes k o (.ask (.effect (.note (.eventStarted event))) next)
  | count {name outcome : String} {next : Nat → Task σ} (rest : ∀ total, (next total).Bystanding k) :
      Owes k (some (name, outcome)) (.ask (.count k name outcome) next)
  | nothing {p : Task σ} (bystands : p.Bystanding k) : Owes k none p

namespace Event
variable {host : Host σ} {event : String} {arguments : List Value} {options : Assoc Value} {index : Nat}
  {context : EventContext}

/-- The tally counts what the event is about. -/
theorem countBefore_eq (legible : Legible arguments context) :
    (Middleware.countBefore k context : Engine σ _) =
      match reported? arguments with
      | none => .done (.ok .none)
      | some (name, outcome) => (request (.count k name outcome)).bind fun total =>
          (Engine.note (.invocationCounted name outcome total)).bind fun _ => .done (.ok .none) := by
  unfold Middleware.countBefore reported?
  simp only [legible.subject?]
  cases subject arguments with
  | outcome o => cases o <;> rfl
  | _ => rfl

theorem owes_sweepFrom (early : index < 3) (legible : Legible arguments context)
    (unmarked : isStopped context = false) {next : Except Fault Swept → Task σ}
    (rest : ∀ x, (next x).Bystanding k) :
    Task.Owes k (reported? arguments) ((sweepFrom host .before event index context).bind next) := by
  have goesOn {c : EventContext} (undisturbed : Undisturbed context c) :
      ¬ (Phase.before = .before ∧ stops .none c = true) := by
    simp [stops, undisturbed.isStopped, unmarked]
  -- by place: the outcome log takes the time, the fault log does nothing, and the tally counts
  obtain rfl | rfl | rfl : index = 0 ∨ index = 1 ∨ index = 2 := by omega
  · refine .fetch early (.time fun now => .note ?_)
    have undisturbed := undisturbed_put_started context now
    show Task.Owes k _ (Program.bind (if Phase.before = .before ∧ stops .none _ = true then _ else _) next)
    rw [if_neg (goesOn undisturbed)]
    exact .sweep (by decide) (undisturbed.legible legible) (undisturbed.isStopped.trans unmarked) rest
  · refine .fetch early ?_
    show Task.Owes k _ (Program.bind (if Phase.before = .before ∧ stops .none _ = true then _ else _) next)
    rw [if_neg (goesOn legible.undisturbed)]
    exact .sweep (by decide) legible unmarked rest
  · refine .fetch early ?_
    have past : Engine.Bystanding k (Program.bind (if Phase.before = .before ∧ stops .none context = true
        then (Engine.note (.eventStopped event)).bind fun _ => .done (.ok ⟨context, true⟩)
        else request (.sweep .before event 3 context)) next) := by
      rw [if_neg (goesOn legible.undisturbed)]
      exact (bystanding_request (r := .sweep .before event 3 context) (le_refl 3)).bind rest
    change Task.Owes k _ (((Program.bind (Middleware.countBefore k context) _).bind _).bind next)
    rw [countBefore_eq legible]
    cases reported? arguments with
    | none => exact .nothing past
    | some report => exact .count fun total => ⟨.inr trivial, fun _ _ => past⟩

theorem owes_emit (free : options.keys.find? (emissionNames.contains ·) = none)
    {next : Except Fault Unit → Task σ} (rest : ∀ x, (next x).Bystanding k) :
    Task.Owes k (reported? arguments) ((emit host event arguments options).bind next) := by
  unfold emit
  simp only [free, emitFreely_eq]
  refine .lookUp fun hooks => .sweep (by decide) (legible_context event arguments options) rfl fun x => ?_
  rcases x with f | ⟨c, _ | _⟩
  · exact rest _
  · exact (bystanding_deliver host event hooks arguments options c).bind rest
  · exact rest _

end Event

namespace Task
variable {p : Task σ}

/-- A step towards the tally, or the one that counts what is due. -/
inductive Nears (env : Surroundings σ) (k : Nat) (s : Shared σ) :
    Option (String × String) → Task σ → Prop where
  | onward {o : Option (String × String)} {p p' : Task σ} {s' : Shared σ}
      (step : p.step env s = .go p' s') (kept : s'.tallies k = s.tallies k) (owes : p'.Owes k o) :
      Nears env k s o p
  | counted {name outcome : String} {p p' : Task σ}
      (step : p.step env s = .go p' (s.count k name outcome)) (bystands : p'.Bystanding k) :
      Nears env k s (some (name, outcome)) p

/-- A task either owes nothing, or it asks for what brings the event nearer. -/
theorem Owes.nears (env : Surroundings σ) {o : Option (String × String)} (owes : p.Owes k o) :
    o = none ∧ p.Bystanding k ∨ (∃ r next, p = .ask r next ∧ r.Leads) ∧
      ∀ s : Shared σ, s.subscribers.Equipped k → p.Nears env k s o := by
  cases owes with
  | lookUp rest => exact .inr ⟨⟨_, _, rfl, trivial⟩, fun s _ => .onward rfl rfl (rest _)⟩
  | sweep early legible unmarked rest =>
    exact .inr ⟨⟨_, _, rfl, early⟩, fun s _ =>
      .onward rfl rfl (owes_sweepFrom early legible unmarked rest)⟩
  | fetch early rest =>
    exact .inr ⟨⟨_, _, rfl, early⟩, fun s equipped => .onward rfl rfl (equipped.early early ▸ rest)⟩
  | time rest => exact .inr ⟨⟨_, _, rfl, trivial⟩, fun s _ => .onward rfl rfl (rest _)⟩
  | note rest => exact .inr ⟨⟨_, _, rfl, trivial⟩, fun s _ => .onward rfl rfl rest⟩
  | count rest => exact .inr ⟨⟨_, _, rfl, trivial⟩, fun s _ => .counted rfl (rest _)⟩
  | nothing bystands => exact .inl ⟨rfl, bystands⟩

end Task

theorem EngineRequest.Leads.emits? {r : EngineRequest σ} (h : r.Leads) : r.emits? = none := by
  cases r with
  | effect e =>
    cases e with
    | note n => rfl
    | _ => exact h.elim
  | _ => rfl

/-- A bystander's request leaves the tally as it is. -/
theorem Answers.tallies {s s' : Shared σ} {r : EngineRequest σ} {x : r.Answer} (h : Answers env s r x s')
    (bystands : r.Bystands k) : s'.tallies k = s.tallies k := by
  cases h with
  | count number command outcome => exact if_neg (Ne.symm bystands)
  | claimRun c =>
    unfold Shared.claimRun
    split
    · split <;> rfl
    · rfl
  | record c =>
    unfold Shared.record
    split <;> rfl
  | edit change =>
    unfold Shared.tryEdit
    split <;> rfl
  | _ => rfl

theorem Answers.passes {s s' : Shared σ} {r : EngineRequest σ} {x : r.Answer} (h : Answers env s r x s')
    (equipped : s.subscribers.Equipped k) : r.Passes k x := by
  cases h with
  | middlewareAt index => exact equipped.behind
  | _ => trivial

namespace World
variable {first w : World σ} {h : List Happening}

/-- What the thread whose turn it is asks for next. -/
def asked? (w : World σ) : Option (EngineRequest σ) :=
  match w.turns with
  | .step i :: _ =>
    match w.state? i with
    | some (.running (.ask r _)) => some r
    | _ => none
  | _ => none

theorem asked?_eq_some {r : EngineRequest σ} : w.asked? = some r ↔ ∃ i, w.Turns i r := by
  constructor
  · intro asks
    unfold asked? at asks
    split at asks
    case h_1 i rest turn =>
      split at asks
      case h_1 r' next state =>
        obtain rfl := Option.some.inj asks
        exact ⟨i, rest, next, turn, state⟩
      case h_2 => cases asks
    case h_2 => cases asks
  · rintro ⟨i, rest, next, turn, state⟩
    simp [asked?, turn, state]

/-- An event that was emitted is on its way to the tally. -/
def Leads (w : World σ) : Prop := ∃ r, w.asked? = some r ∧ r.Leads

def emptied (k : Nat) (w : World σ) : World σ :=
  { w with shared := { w.shared with tallies := Function.update w.shared.tallies k [] } }

/-- A run of a world in which the tally comes right after the standard middleware, with the events that are
emitted and the times when it is emptied, the latest first. The host acts, and empties it, when no event is on
its way to the tally. -/
inductive Emits (env : Surroundings σ) (k : Nat) (first : World σ) : List Happening → World σ → Prop where
  | start : Emits env k first [] first
  | tick {h : List Happening} {w : World σ} (run : Emits env k first h w)
      (equipped : w.shared.subscribers.Equipped k) :
      Emits env k first ((w.asked?.bind EngineRequest.emits?).toList ++ h) (w.tick env)
  | act {h : List Happening} {w : World σ} (run : Emits env k first h w) (a : Act σ) (settled : ¬ w.Leads)
      (apart : (w.act env a).shared.tallies k = w.shared.tallies k) : Emits env k first h (w.act env a)
  | empty {h : List Happening} {w : World σ} (run : Emits env k first h w) (settled : ¬ w.Leads) :
      Emits env k first (.emptied :: h) (w.emptied k)

/-- All threads are bystanders, but for those that are exempt. -/
abbrev Bystanding (k : Nat) (w : World σ) (exempt : Nat → Bool) : Prop :=
  w.Follows (bystanding σ k) false (fun _ _ => True) exempt

/-- The tally is up to date, or what it lacks is on its way. -/
inductive Accounts (k : Nat) (h : List Happening) (w : World σ) : Prop where
  | settled (threads : w.Bystanding k fun _ => false)
      (shows : (w.shared.tallies k).Shows (Happening.reports h))
  | owing {i : Nat} {rest : List Turn} {p : Task σ} {o : Option (String × String)}
      {n : String → String → Nat} (turn : w.turns = .step i :: rest)
      (state : w.state? i = some (.running p)) (owes : p.Owes k o)
      (threads : w.Bystanding k (Function.update (fun _ => false) i true))
      (shows : (w.shared.tallies k).Shows n)
      (lacks : ∀ name outcome,
        Happening.reports h name outcome = n name outcome + if o = some (name, outcome) then 1 else 0)

variable {i : Nat} {rest : List Turn} {p : Task σ}

/-- The thread that was exempt is a bystander again. -/
theorem Bystanding.returned (threads : w.Bystanding k (Function.update (fun _ => false) i true))
    (state : w.state? i = some (.running p)) (bystands : p.Bystanding k) : w.Bystanding k fun _ => false where
  threads j st hs := by
    by_cases same : j = i
    · subst same
      cases state.symm.trans hs
      exact bystands
    · simpa [Function.update_of_ne same] using threads.threads j st hs
  unborn _ _ := rfl

/-- A thread is exempt from now on, or still is. -/
theorem Bystanding.exempt {exempt : Nat → Bool} (threads : w.Bystanding k exempt)
    (state : w.state? i = some (.running p)) (p' : Task σ) :
    (w.setState i (.running p')).Bystanding k (Function.update exempt i true) :=
  threads.setState (lt_of_state? state) (follows_exempt p')

/-- Nothing is due for an event that is about no outcome. -/
theorem shows_of_lacks {n : String → String → Nat} (shows : (w.shared.tallies k).Shows n)
    (lacks : ∀ name outcome, Happening.reports h name outcome =
      n name outcome + if (none : Option (String × String)) = some (name, outcome) then 1 else 0) :
    (w.shared.tallies k).Shows (Happening.reports h) := by
  convert shows using 1
  exact funext fun name => funext fun outcome => lacks name outcome

theorem Accounts.of_settled (env : Surroundings σ) (accounts : w.Accounts k h) (settled : ¬ w.Leads) :
    w.Bystanding k (fun _ => false) ∧ (w.shared.tallies k).Shows (Happening.reports h) := by
  cases accounts with
  | settled threads shows => exact ⟨threads, shows⟩
  | owing turn state owes threads shows lacks =>
    rcases owes.nears env with ⟨rfl, bystands⟩ | ⟨⟨r, next, rfl, leads⟩, -⟩
    · exact ⟨threads.returned state bystands, shows_of_lacks shows lacks⟩
    · exact absurd ⟨r, asked?_eq_some.2 ⟨_, _, _, turn, state⟩, leads⟩ settled

/-- A turn in which no event is emitted leaves the tally as it is. -/
theorem Bystanding.tick (env : Surroundings σ) (threads : w.Bystanding k fun _ => false)
    (equipped : w.shared.subscribers.Equipped k) (still : w.asked?.bind EngineRequest.emits? = none) :
    (w.tick env).Bystanding k (fun _ => false) ∧ (w.tick env).shared.tallies k = w.shared.tallies k := by
  obtain ⟨exempt, followed, ⟨change⟩⟩ := threads.tick_of (bystanding_steady env)
    (fun _ answers _ => .inr (answers.passes equipped)) fun turns expands allowed => by
      cases expands with
      | dispatch m => exact (Dispatcher.bystanding_process _ _ m).stands fun _ => trivial
      | emit event arguments options outlet =>
        refine Bystanding.stands ?_ fun _ => trivial
        rw [asked?_eq_some.2 ⟨_, turns⟩] at still
        unfold Event.emit
        cases taken : options.keys.find? (emissionNames.contains ·) with
        | none => simp only [Option.bind_some, EngineRequest.emits?, taken, reduceCtorEq] at still
        | some name => trivial
      | sweep phase event index context =>
        refine Bystanding.stands (bystanding_sweepFrom ?_ event context) fun _ => trivial
        rintro rfl
        exact allowed.resolve_left nofun
  rcases change with ⟨-, shared, rfl⟩ | ⟨i, r, x, -, answers, allowed, -, rfl⟩
  · exact ⟨followed, by rw [shared]⟩
  · refine ⟨followed.of_states fun j => ?_, answers.tallies (allowed.resolve_left nofun)⟩
    exact (congrFun (Function.update_eq_self i fun _ => false) j).symm

theorem Bystanding.accounts_tick (outlet : env.dispatcher.events.check "emit" = .ok ())
    (threads : w.Bystanding k fun _ => false) (shows : (w.shared.tallies k).Shows (Happening.reports h))
    (equipped : w.shared.subscribers.Equipped k) :
    (w.tick env).Accounts k ((w.asked?.bind EngineRequest.emits?).toList ++ h) := by
  cases emits : w.asked?.bind EngineRequest.emits? with
  | none =>
    obtain ⟨threads', kept⟩ := threads.tick env equipped emits
    exact .settled threads' (kept.symm ▸ shows)
  | some happening =>
    obtain ⟨r, asks, emits⟩ := Option.bind_eq_some_iff.1 emits
    obtain ⟨i, rest, next, turn, state⟩ := asked?_eq_some.1 asks
    obtain ⟨event, arguments, options, rfl, free, rfl⟩ := EngineRequest.emits?_eq_some.1 emits
    have step : Task.step env w.shared (.ask (.effect (.emit event arguments options)) next) =
        .go ((Event.emit env.host event arguments options).bind next) w.shared := by
      simp only [Task.step, outlet]
    have bystands := threads.threads i _ state
    -- from now on the thread is not a bystander: it owes what the event reports
    rw [tick_go turn state step]
    refine .owing turn (state?_setState_self state) (owes_emit free fun x => ?_)
      (threads.exempt state _) shows (Happening.reports_emitted event arguments)
    exact bystands.2 x (.inr trivial)

theorem Accounts.tick (outlet : env.dispatcher.events.check "emit" = .ok ()) (accounts : w.Accounts k h)
    (equipped : w.shared.subscribers.Equipped k) :
    (w.tick env).Accounts k ((w.asked?.bind EngineRequest.emits?).toList ++ h) := by
  cases accounts with
  | settled threads shows => exact threads.accounts_tick outlet shows equipped
  | @owing i rest p o n turn state owes threads shows lacks =>
    rcases owes.nears env with ⟨rfl, bystands⟩ | ⟨⟨r, next, rfl, leads⟩, nears⟩
    · exact (threads.returned state bystands).accounts_tick outlet (shows_of_lacks shows lacks) equipped
    -- the thread keeps its turn until the event is counted, and emits no other meanwhile
    have still : w.asked?.bind EngineRequest.emits? = none := by
      rw [asked?_eq_some.2 ⟨_, _, _, turn, state⟩]
      exact leads.emits?
    rw [still]
    cases nears w.shared equipped with
    | @onward _ _ p' s step kept owes =>
      rw [tick_go turn state step]
      have exempt := threads.exempt state p'
      rw [Function.update_idem] at exempt
      exact .owing turn (state?_setState_self state) owes (exempt.congr rfl) (kept.symm ▸ shows) lacks
    | @counted name outcome _ p' step bystands =>
      rw [tick_go turn state step]
      have running : (w.setState i (.running p')).state? i = some (.running p') := state?_setState_self state
      have exempt := threads.exempt state p'
      rw [Function.update_idem] at exempt
      refine .settled ((exempt.returned running bystands).congr rfl) ?_
      convert shows.add name outcome using 1
      · simp [Shared.count]
      · funext name' outcome'
        simpa using lacks name' outcome'

theorem Accounts.act (accounts : w.Accounts k h) (settled : ¬ w.Leads) (a : Act σ)
    (apart : (w.act env a).shared.tallies k = w.shared.tallies k) : (w.act env a).Accounts k h := by
  obtain ⟨threads, shows⟩ := accounts.of_settled env settled
  refine .settled ?_ (apart.symm ▸ shows)
  have started {p : Task σ} (bystands : p.Bystanding k) : (w.start p).1.Bystanding k fun _ => false := by
    refine (threads.start bystands).of_states fun j => ?_
    exact (congrFun (Function.update_eq_self _ fun _ => false) j).symm
  cases a with
  | receive m => exact started ((Dispatcher.bystanding_process _ _ m).bind fun _ => trivial)
  | perform script => exact started ((effects_runScript script.within_all).bystanding.bind fun _ => trivial)
  | answer i x => exact threads.answer (bystanding_steady env) fun _ _ => .inr trivial
  | cancel root =>
    exact threads.cancel (bystanding_steady env) root (fun _ _ => .inr trivial) fun _ _ _ _ _ => .inr trivial
  | arrange turns => exact threads.arrange turns
  | adjust change => exact threads.adjust change

theorem Emits.accounts (outlet : env.dispatcher.events.check "emit" = .ok ()) (threads : first.threads = [])
    (fresh : first.shared.tallies k = []) (run : Emits env k first h w) : w.Accounts k h := by
  induction run with
  | start =>
    refine .settled ⟨fun i st hs => ?_, fun _ _ => rfl⟩ (fresh ▸ Tally.shows_nil)
    simp [state?_eq, threads] at hs
  | tick run equipped ih => exact ih.tick outlet equipped
  | act run a settled apart ih => exact ih.act settled a apart
  | @empty _ w run settled ih =>
    obtain ⟨bystanding, -⟩ := ih.of_settled env settled
    refine .settled (bystanding.congr rfl) ?_
    have nil : (w.emptied k).shared.tallies k = [] := Function.update_self ..
    exact nil.symm ▸ Tally.shows_nil

/-- The history and the world after so many turns. -/
def emitting (env : Surroundings σ) : World σ → Nat → List Happening → List Happening × World σ
  | w, 0, h => (h, w)
  | w, turns + 1, h => emitting env (w.tick env) turns ((w.asked?.bind EngineRequest.emits?).toList ++ h)

/-- For so many turns the tally stays in its place. -/
def StaysEquipped (env : Surroundings σ) (k : Nat) : World σ → Nat → Prop
  | _, 0 => True
  | w, turns + 1 => w.shared.subscribers.Equipped k ∧ StaysEquipped env k (w.tick env) turns

instance decidableStaysEquipped (env : Surroundings σ) (k : Nat) :
    (w : World σ) → (turns : Nat) → Decidable (w.StaysEquipped env k turns)
  | _, 0 => .isTrue trivial
  | w, turns + 1 =>
    have := decidableStaysEquipped env k (w.tick env) turns
    inferInstanceAs (Decidable (w.shared.subscribers.Equipped k ∧ (w.tick env).StaysEquipped env k turns))

theorem Emits.emitting (run : Emits env k first h w) (turns : Nat) (stays : w.StaysEquipped env k turns) :
    Emits env k first (w.emitting env turns h).1 (w.emitting env turns h).2 := by
  induction turns generalizing h w with
  | zero => exact run
  | succ turns ih => exact ih (run.tick stays.1) stays.2

end World
end ChatCommands
