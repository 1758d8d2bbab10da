import Mathlib
import ChatCommands.Proofs.HostRequests

set_option autoImplicit false

/-!
# The course of a dispatch

Whatever the host does, a dispatch that finds a command takes one of three
courses: the command is refused; or it is admitted and released; or it is
admitted, remembered and released. Which of them it took shows in its outcome. A
discipline that has states for the stages of these courses is followed by every
dispatch, and so the one proof serves for traces and for the world's threads.
-/
namespace ChatCommands
variable {σ α S : Type}

def Dispatcher.invoked? (d : Dispatcher) (m : Message) : Option Command :=
  (Invocation.read? d.options.prelude m.content).bind fun i => d.registry.lookup? i.keyword

/-- The dispatch of a message asks for this: an effect of this kind, or what concerns the runs of this
command. -/
def EngineRequest.Dispatches (P : Effect σ → Prop) (name : String) : EngineRequest σ → Prop
  | .effect e => P e
  | .claimRun c | .record c => c.name = name
  | .finish other => other = name
  | _ => False

abbrev Dispatches (P : Effect σ → Prop) (name : String) (p : Engine σ α) : Prop :=
  Program.Uses (fun r : EngineRequest σ => r.Dispatches P name) p

section Dispatches
variable {P : Effect σ → Prop} {name : String} {host : Host σ}

theorem Engine.Effects.dispatches {p : Engine σ α} (h : p.Effects P) (name : String) :
    Dispatches P name p := by
  apply Program.Uses.mono h
  intro r hr
  cases r with
  | effect e => exact hr
  | _ => exact hr.elim

theorem dispatches_request {r : EngineRequest σ} (h : r.Dispatches P name) :
    Dispatches P name (Engine.request r) := ⟨h, fun _ => trivial⟩

namespace Dispatcher
variable {m : Message} {command : Command} (hP : host.Within P)
  (execute : ∀ h c, Script.Within P (host.execute h m c))
include hP

include execute in
theorem dispatches_run (arguments : Assoc Value) :
    Dispatches P command.name (run host m command arguments) := by
  refine ((effects_callExecute hP m _ (execute · _) _ _).dispatches _).bind fun r => ?_
  split
  · refine (dispatches_request (by rfl)).bind fun recorded => ?_
    split <;> trivial
  · split
    · exact ((Engine.effects_note hP _).dispatches _).bind fun _ => trivial
    · trivial

include execute in
theorem dispatches_guardAndRun (arguments : Assoc Value) :
    Dispatches P command.name (guardAndRun host m command arguments) := by
  unfold guardAndRun
  split
  · exact dispatches_run hP execute arguments
  · refine ((Guard.effects_evaluate hP _ _ arguments _).dispatches _).bind ?_
    rintro ⟨verdict, arguments⟩
    dsimp only
    split
    · trivial
    · trivial
    · exact dispatches_run hP execute arguments

theorem dispatches_refuse (d : Dispatcher) (e : BindingError) :
    Dispatches P command.name (d.refuse host m command e) := by
  cases e with
  | escaped f => trivial
  | missing slot | invalid slot token cause =>
    refine ((effects_replyWithError hP d m _).dispatches _).bind fun r => ?_
    split <;> trivial

include execute in
theorem dispatches_invoke (d : Dispatcher) (tokens : List String) :
    Dispatches P command.name (d.invoke host m command tokens) := by
  refine (dispatches_request (by rfl)).bind fun admitted => ?_
  split
  · have bound := (Argument.effects_bindFrom hP d.parsers (some m) command.definition.slots []
      tokens).dispatches command.name
    refine Program.Uses.bind (bound.bind fun r => ?_) fun _ =>
      (dispatches_request (by rfl)).bind fun _ => trivial
    split
    · exact dispatches_guardAndRun hP execute _
    · exact dispatches_refuse hP d _
  · trivial

include execute in
/-- A dispatch claims, records and finishes runs of no command but the one that it invokes, and leaves the
emission of events to those that it asks for. -/
theorem dispatches_process {d : Dispatcher}
    (reports : ∀ o, P (.emit finishedEvent [.outcome o] [])) (invokes : d.invoked? m = some command) :
    Dispatches P command.name (d.process host m) := by
  obtain ⟨invocation, read, found⟩ := Option.bind_eq_some_iff.1 invokes
  simp only [process, read, found]
  refine ((Engine.effects_note hP _).dispatches _).bind fun _ =>
    (dispatches_invoke hP execute d _).bind fun r => ?_
  split
  · trivial
  · next outcome =>
    refine (dispatches_request (r := .effect (.emit finishedEvent [.outcome outcome] [])) (reports _)).bind
      fun told => ?_
    split <;> trivial

omit hP in
theorem process_of_not_invoked (host : Host σ) {d : Dispatcher} {m : Message} (none : d.invoked? m = none) :
    ∃ r, d.process host m = .done r := by
  unfold process
  cases read : Invocation.read? d.options.prelude m.content with
  | none => exact ⟨_, rfl⟩
  | some i =>
    have lost : d.registry.lookup? i.keyword = Option.none := by simpa [invoked?, read] using none
    simp only [lost]
    exact ⟨_, rfl⟩

end Dispatcher
end Dispatches

/-- The states that a discipline goes through while a message is dispatched. -/
structure Course (S : Type) where
  before : S
  refused : Definition → S
  admitted : Definition → S
  completed : Definition → S
  /-- the run has ended without being remembered -/
  failed : Definition → S
  succeeded : Definition → S

namespace Course

/-- The discipline allows the requests of each stage, and they lead to the next one. -/
structure Sound (D : Discipline (engineInterface σ) S) (course : Course S) : Prop where
  notes : ∀ n, D.allows course.before (.effect (.note n)) ∧
    D.next course.before (.effect (.note n)) () = course.before
  claims : ∀ c, D.allows course.before (.claimRun c)
  refuses : ∀ c, D.next course.before (.claimRun c) false = course.refused c
  admits : ∀ c, D.next course.before (.claimRun c) true = course.admitted c
  records : ∀ c, D.allows (course.admitted c) (.record c)
  completes : ∀ c, D.next (course.admitted c) (.record c) (.ok ()) = course.completed c
  timeless : ∀ c f, D.next (course.admitted c) (.record c) (.error f) = course.admitted c
  releases : ∀ c, D.allows (course.admitted c) (.finish c.name) ∧
    D.allows (course.completed c) (.finish c.name)
  fails : ∀ c, D.next (course.admitted c) (.finish c.name) () = course.failed c
  succeeds : ∀ c, D.next (course.completed c) (.finish c.name) () = course.succeeded c
  passes : ∀ c, ∀ s ∈ [course.refused c, course.admitted c, course.failed c, course.succeeded c],
    ∀ r : EngineRequest σ, r.Untracked → D.allows s r ∧ ∀ x, D.next s r x = s

/-- How the stages between admission and release end. -/
inductive Attempted (course : Course S) (c : Definition) : S → Except Fault Outcome → Prop where
  | succeeded : Attempted course c (course.completed c) (.ok (.succeeded c))
  | failed {why : Failure} (h : why ≠ .coolingDown) :
      Attempted course c (course.admitted c) (.ok (.failed c why))
  | raised (f : Fault) : Attempted course c (course.admitted c) (.error f)

/-- How a dispatch ends that has found the command. The event that reports the outcome may raise in
each case. -/
inductive Ended (course : Course S) (c : Definition) : S → Except Fault Outcome → Prop where
  | refused : Ended course c (course.refused c) (.ok (.failed c .coolingDown))
  | failed {why : Failure} (h : why ≠ .coolingDown) :
      Ended course c (course.failed c) (.ok (.failed c why))
  | succeeded : Ended course c (course.succeeded c) (.ok (.succeeded c))
  | raised {s : S} (f : Fault)
      (h : s ∈ [course.refused c, course.failed c, course.succeeded c]) :
      Ended course c s (.error f)

inductive Dispatched (course : Course S) (d : Dispatcher) (m : Message) :
    S → Except Fault Outcome → Prop where
  | ignored (b : Bool) (h : d.invoked? m = none) :
      Dispatched course d m course.before (.ok (.ignored b))
  | ended {command : Command} {s : S} {r : Except Fault Outcome} (h : d.invoked? m = some command)
      (ended : Ended course command.definition s r) : Dispatched course d m s r

variable {D : Discipline (engineInterface σ) S} {course : Course S} {c : Definition}

theorem Sound.follows_untracked {α : Type} (sound : course.Sound D) {s : S}
    (hs : s ∈ [course.refused c, course.admitted c, course.failed c, course.succeeded c])
    {p : Engine σ α} (hp : Untracked p) : p.Follows D (fun s' _ => s' = s) s :=
  Program.Uses.follows hp s (fun r hr => (sound.passes c s hs r hr).1)
    fun r x hr => (sound.passes c s hs r hr).2 x

theorem Sound.follows_admitted {α : Type} {P : Effect σ → Prop} (sound : course.Sound D)
    {p : Engine σ α} (hp : p.Within P) :
    p.Follows D (fun s' _ => s' = course.admitted c) (course.admitted c) :=
  sound.follows_untracked (c := c) (by simp) hp.untracked

theorem Ended.rests {s : S} {r : Except Fault Outcome} (h : course.Ended c s r) :
    s ∈ [course.refused c, course.failed c, course.succeeded c] := by
  cases h with
  | refused | failed _ | succeeded => simp
  | raised f h => exact h

theorem Ended.resting {s : S} {r : Except Fault Outcome} (h : course.Ended c s r) :
    s ∈ [course.refused c, course.admitted c, course.failed c, course.succeeded c] := by
  have := h.rests
  simp only [List.mem_cons] at this ⊢
  tauto

theorem follows_release {s s' : S} {r : Except Fault Outcome} (allowed : D.allows s (.finish c.name))
    (next : D.next s (.finish c.name) () = s') (h : course.Ended c s' r) :
    Program.Follows D (course.Ended c) s ((Engine.request (.finish c.name)).bind fun _ => .done r) := by
  subst next
  exact ⟨allowed, fun _ _ => h⟩

end Course

namespace Dispatcher
variable {D : Discipline (engineInterface σ) S} {course : Course S}

theorem follows_run (sound : course.Sound D) (host : Host σ) (m : Message) (command : Command)
    (arguments : Assoc Value) : (run host m command arguments).Follows D
      (course.Attempted command.definition) (course.admitted command.definition) := by
  unfold run
  refine (sound.follows_admitted (within_callExecute host.within_all m _
    (fun _ => Script.within_all _) _ arguments)).bind ?_
  rintro _ r rfl
  cases r with
  | ok v =>
    refine ⟨sound.records _, fun x _ => ?_⟩
    cases x with
    | ok u =>
      rw [sound.completes]
      exact .succeeded
    | error f =>
      rw [sound.timeless]
      exact .raised f
  | error f =>
    dsimp only
    split
    · refine (sound.follows_admitted (Engine.within_note host.within_all _)).bind ?_
      rintro _ _ rfl
      exact .failed nofun
    · exact .raised f

theorem follows_guardAndRun (sound : course.Sound D) (host : Host σ) (m : Message)
    (command : Command) (arguments : Assoc Value) : (guardAndRun host m command arguments).Follows D
      (course.Attempted command.definition) (course.admitted command.definition) := by
  unfold guardAndRun
  split
  · exact follows_run sound host m command arguments
  · refine (sound.follows_admitted (Guard.within_evaluate host.within_all _ _ arguments _)).bind ?_
    rintro _ ⟨verdict, arguments⟩ rfl
    dsimp only
    split
    · exact .raised _
    · exact .failed nofun
    · exact follows_run sound host m command arguments

theorem follows_refuse (sound : course.Sound D) (d : Dispatcher) (host : Host σ) (m : Message)
    (command : Command) (e : BindingError) : (d.refuse host m command e).Follows D
      (course.Attempted command.definition) (course.admitted command.definition) := by
  cases e with
  | escaped f => exact .raised f
  | missing slot =>
    refine (sound.follows_admitted (within_replyWithError host.within_all d m _)).bind ?_
    rintro _ (f | u) rfl
    · exact .raised f
    · exact .failed nofun
  | invalid slot token cause =>
    refine (sound.follows_admitted (within_replyWithError host.within_all d m _)).bind ?_
    rintro _ (f | u) rfl
    · exact .raised f
    · exact .failed nofun

theorem follows_attempt (sound : course.Sound D) (d : Dispatcher) (host : Host σ) (m : Message)
    (command : Command) (tokens : List String) : (d.attempt host m command tokens).Follows D
      (course.Attempted command.definition) (course.admitted command.definition) := by
  unfold attempt
  have bound := Argument.within_bindFrom host.within_all d.parsers (some m)
    command.definition.slots [] tokens
  refine (sound.follows_admitted bound).bind ?_
  rintro _ (e | arguments) rfl
  · exact follows_refuse sound d host m command e
  · exact follows_guardAndRun sound host m command arguments

theorem follows_invoke (sound : course.Sound D) (d : Dispatcher) (host : Host σ) (m : Message)
    (command : Command) (tokens : List String) : (d.invoke host m command tokens).Follows D
      (course.Ended command.definition) course.before := by
  refine ⟨sound.claims _, fun admitted _ => ?_⟩
  cases admitted with
  | false =>
    rw [sound.refuses]
    exact .refused
  | true =>
    rw [sound.admits]
    refine (follows_attempt sound d host m command tokens).bind ?_
    intro s r h
    cases h with
    | succeeded => exact Course.follows_release (sound.releases _).2 (sound.succeeds _) .succeeded
    | failed h => exact Course.follows_release (sound.releases _).1 (sound.fails _) (.failed h)
    | raised f =>
      exact Course.follows_release (sound.releases _).1 (sound.fails _) (.raised f (by simp))

theorem follows_process (sound : course.Sound D) (d : Dispatcher) (host : Host σ) (m : Message) :
    (d.process host m).Follows D (course.Dispatched d m) course.before := by
  unfold process
  split
  case h_1 hi => exact .ignored _ (by simp [invoked?, hi])
  case h_2 invocation hi =>
    split
    case h_1 hl => exact .ignored _ (by simp [invoked?, hi, hl])
    case h_2 command hl =>
      have found : d.invoked? m = some command := by simp [invoked?, hi, hl]
      refine ⟨(sound.notes _).1, fun u _ => ?_⟩
      rw [show u = () from rfl, (sound.notes _).2]
      refine (follows_invoke sound d host m command invocation.tokens).bind ?_
      intro s r h
      cases r with
      | error f => exact .ended found h
      | ok outcome =>
        refine (sound.follows_untracked h.resting (Event.untracked_request (by trivial))).bind ?_
        rintro _ (f | u) rfl
        · exact .ended found (.raised f h.rests)
        · exact .ended found h

end Dispatcher

/-- What a dispatch does about the cooldowns. -/
inductive RunEvent where
  | refused (command : Definition)
  | admitted (command : Definition)
  | completed (command : Definition)
  | released (command : String)
  deriving DecidableEq, Repr

namespace RunEvent

def of? : (r : EngineRequest σ) → r.Answer → Option RunEvent
  | .claimRun c, true => some (.admitted c)
  | .claimRun c, false => some (.refused c)
  | .record c, .ok _ => some (.completed c)
  | .finish name, _ => some (.released name)
  | _, _ => none

def ofTrace (t : List (Exchange (engineInterface σ))) : List RunEvent :=
  t.filterMap fun e => of? e.1 e.2

/-- The discipline that only keeps account. -/
def account (σ : Type) : Discipline (engineInterface σ) (List RunEvent) where
  allows _ _ := True
  expects _ _ _ := True
  next es r x := es ++ (of? r x).toList

def course : Course (List RunEvent) where
  before := []
  refused c := [.refused c]
  admitted c := [.admitted c]
  completed c := [.admitted c, .completed c]
  failed c := [.admitted c, .released c.name]
  succeeded c := [.admitted c, .completed c, .released c.name]

theorem of?_untracked {r : EngineRequest σ} (h : r.Untracked) (x : r.Answer) :
    of? r x = none := by
  cases r with
  | claimRun c | finish name | record c => exact h.elim
  | _ => rfl

theorem course_sound : course.Sound (account σ) where
  notes _ := ⟨trivial, rfl⟩
  claims _ := trivial
  refuses _ := rfl
  admits _ := rfl
  records _ := trivial
  completes _ := rfl
  timeless _ _ := rfl
  releases _ := ⟨trivial, trivial⟩
  fails _ := rfl
  succeeds _ := rfl
  passes c s _ r hr := ⟨trivial, fun x => by simp [account, of?_untracked hr x]⟩

theorem account_foldl (t : List (Exchange (engineInterface σ))) (es : List RunEvent) :
    t.foldl (fun es e => (account σ).next es e.1 e.2) es = es ++ ofTrace t := by
  induction t generalizing es with
  | nil => simp [ofTrace]
  | cons e t ih =>
    rw [List.foldl_cons, ih]
    cases h : of? e.1 e.2 <;> simp [account, ofTrace, h]

/-- What any trace of a dispatch does about the cooldowns, and the result that goes with it. -/
theorem dispatched (d : Dispatcher) (host : Host σ) (m : Message)
    {t : List (Exchange (engineInterface σ))} {r : Except Fault Outcome}
    (trace : (d.process host m).Traces t r) : course.Dispatched d m (ofTrace t) r := by
  have ends := (Dispatcher.follows_process course_sound d host m).traced (fun _ _ _ => trivial) trace
  rwa [account_foldl] at ends

end RunEvent
end ChatCommands
