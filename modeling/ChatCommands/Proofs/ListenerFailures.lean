import Mathlib
import ChatCommands.Proofs.EmissionCourse

set_option autoImplicit false

/-!
# The failures of listeners

What listeners end with is told together, and the faults are picked out of it by
what they are, not by how they came: a fault that was returned counts like one
that was raised, and a fatal one does not count at all. What is picked out is
noted and put into the context before the middleware see it again. So the faults
reported are those raised exactly if no listener returns an ordinary fault or
raises a fatal one.
-/
namespace ChatCommands
variable {σ : Type} {env : Surroundings σ}

namespace Event

/-- The fault that a listener has raised. -/
def raised? : Except Fault Value → Option Fault
  | .error f => some f
  | .ok _ => none

/-- The faults that listeners have raised, each with its listener. -/
def raisedBy (results : List (Hook × Except Fault Value)) : List (Hook × Fault) :=
  results.filterMap fun e => (raised? e.2).map (e.1, ·)

/-- What a listener has ended with counts as a failure exactly if it is one. -/
structure Plain (r : Except Fault Value) : Prop where
  raised : ∀ f, r = .error f → f.isOrdinary = true
  returned : ∀ f, r = .ok (.fault f) → f.isOrdinary = false

theorem plain_iff {r : Except Fault Value} : Plain r ↔ faultOf? r = raised? r := by
  constructor
  · intro h
    rcases r with f | v
    · exact if_pos (h.raised f rfl)
    · cases v with
      | fault f => exact if_neg (by simp [h.returned f rfl])
      | _ => rfl
  · intro same
    refine ⟨?_, ?_⟩ <;> rintro f rfl <;> simpa [faultOf?, raised?] using same

theorem faultsOf_cons (hook : Hook) (r : Except Fault Value) (results : List (Hook × Except Fault Value)) :
    faultsOf ((hook, r) :: results) = ((faultOf? r).map (hook, ·)).toList ++ faultsOf results := by
  cases h : faultOf? r <;> simp [faultsOf, h]

theorem raisedBy_cons (hook : Hook) (r : Except Fault Value) (results : List (Hook × Except Fault Value)) :
    raisedBy ((hook, r) :: results) = ((raised? r).map (hook, ·)).toList ++ raisedBy results := by
  cases h : raised? r <;> simp [raisedBy, h]

theorem isOrdinary_of_faultOf? {r : Except Fault Value} {f : Fault} (h : faultOf? r = some f) :
    f.isOrdinary = true := by
  unfold faultOf? at h
  grind

theorem isOrdinary_of_mem_faultsOf {results : List (Hook × Except Fault Value)} {e : Hook × Fault}
    (h : e ∈ faultsOf results) : e.2.isOrdinary = true := by
  obtain ⟨r, -, found⟩ := List.mem_filterMap.1 h
  obtain ⟨f, failed, rfl⟩ := Option.map_eq_some_iff.1 found
  exact isOrdinary_of_faultOf? failed

/-- Where nothing fatal is raised, what is raised is reported, perhaps among other faults. -/
theorem raisedBy_sublist {results : List (Hook × Except Fault Value)}
    (h : ∀ e ∈ raisedBy results, e.2.isOrdinary = true) : (raisedBy results).Sublist (faultsOf results) := by
  induction results with
  | nil => exact List.Sublist.refl _
  | cons e results ih =>
    obtain ⟨hook, r⟩ := e
    rw [raisedBy_cons] at h ⊢
    rw [faultsOf_cons]
    have rest := ih fun e he => h e (List.mem_append_right _ he)
    rcases r with f | v
    · have ordinary : f.isOrdinary = true := h (hook, f) (by simp [raised?])
      rw [show faultOf? (.error f) = some f from if_pos ordinary]
      exact rest.append_left _
    · exact rest.trans (List.sublist_append_right _ _)

/-- The faults reported are those raised exactly if each result counts as what it is. -/
theorem faultsOf_eq_raisedBy_iff {results : List (Hook × Except Fault Value)} :
    faultsOf results = raisedBy results ↔ ∀ e ∈ results, Plain e.2 := by
  constructor
  · intro same
    have ordinary : ∀ e ∈ raisedBy results, e.2.isOrdinary = true := fun e he =>
      isOrdinary_of_mem_faultsOf (same ▸ he)
    induction results with
    | nil => simp
    | cons e results ih =>
      obtain ⟨hook, r⟩ := e
      rw [faultsOf_cons, raisedBy_cons] at same
      rw [raisedBy_cons] at ordinary
      have rest : ∀ e ∈ raisedBy results, e.2.isOrdinary = true := fun e he =>
        ordinary e (List.mem_append_right _ he)
      have counts : faultOf? r = raised? r := by
        rcases r with f | v
        · exact if_pos (ordinary (hook, f) (by simp [raised?]))
        · cases failed : faultOf? (.ok v) with
          | none => rfl
          | some f =>
            -- one more is reported than was raised, though all that was raised is reported
            have longer := congrArg List.length same
            have shorter := (raisedBy_sublist rest).length_le
            simp [failed, raised?] at longer
            omega
      rw [counts] at same
      exact List.forall_mem_cons.2 ⟨plain_iff.2 counts, ih (List.append_cancel_left same) rest⟩
  · intro plain
    refine List.filterMap_congr fun e he => ?_
    rw [plain_iff.1 (plain e he)]

/-- The faults are noted and gathered one after the other, and then the middleware are called with the
context that has them. -/
inductive Reports (env : Surroundings σ) (event : String) (context : EventContext)
    (faults : List (Hook × Fault)) : List (Moment σ) → Option (Except Fault Unit) → Prop where
  | reporting {t : List (Moment σ)} (part : t.map (·.deed) <+:
        faults.flatMap (gathering env.host event (context.find? "errors"))) :
      Reports env event context faults t none
  | reported {t u : List (Moment σ)} {context' : EventContext} {o : Option (Except Fault Swept)}
      (gathered : Gathered env event context faults t context')
      (sweep : Plays env (Engine.request (.sweep .after event 0 context')) u o) :
      Reports env event context faults (t ++ u) (o.map fun r => r.map fun _ => ())

variable {event : String} {arguments : List Value} {options : Assoc Value} {context : EventContext}
  {t : List (Moment σ)} {o : Option (Except Fault Unit)} {log : List (Moment σ)} {listeners : List Hook}

theorem reports_of_plays {results : List (Hook × Except Fault Value)} (gathers : Gathers context)
    (h : Plays env (conclude env.host event context results) t o) :
    Reports env event context (faultsOf results) t o := by
  rcases h.of_bind with ⟨rfl, first⟩ | ⟨u, v, x, rfl, first, plays⟩
  · rcases gathered_of_plays gathers first with ⟨-, part⟩ | ⟨_, ⟨⟩, -⟩
    exact .reporting part
  rcases gathered_of_plays gathers first with ⟨⟨⟩, -⟩ | ⟨context', ⟨⟩, -, gathered⟩
  rcases plays.of_bind with ⟨rfl, sweep⟩ | ⟨v, v', r, rfl, sweep, plays⟩
  · exact .reported gathered sweep
  · cases plays with
    | pause =>
      rw [List.append_nil]
      exact .reported gathered sweep.cut
    | done =>
      rw [List.append_nil]
      exact .reported gathered sweep

/-- An event that was not stopped goes to the listeners, and what they end with is reported. -/
inductive Delivery (env : Surroundings σ) (log : List (Moment σ)) (event : String)
    (arguments : List Value) (options : Assoc Value) (listeners : List Hook) (context : EventContext) :
    List (Moment σ) → Option (Except Fault Unit) → Prop where
  | refused {o : Option (Except Fault Unit)} (any : listeners ≠ []) (taken : listenerName ∈ options.keys)
      (result : ∀ r, o = some r → r = .error (.givenTwice "call_maybe_async" listenerName)) :
      Delivery env log event arguments options listeners context [] o
  | begun : Delivery env log event arguments options listeners context [] none
  | calling {n : Moment σ} (asked : n.deed = .asks (.notify listeners arguments options)) :
      Delivery env log event arguments options listeners context [n] none
  | told {n h : Moment σ} {results : List (Except Fault Value)} {t : List (Moment σ)}
      {o : Option (Except Fault Unit)} (asked : n.deed = .asks (.notify listeners arguments options))
      (told : Told env log n h listeners arguments options results)
      (reports : Gathers context → Reports env event context (faultsOf (listeners.zip results)) t o) :
      Delivery env log event arguments options listeners context (n :: h :: t) o

theorem delivery_of_plays (told : ∀ n h u xs, t = n :: h :: u →
      n.deed = .asks (.notify listeners arguments options) → h.deed = .hears xs →
      ∃ results, xs = .ok results ∧ Told env log n h listeners arguments options results)
    (plays : Plays env (deliver env.host event listeners arguments options context) t o) :
    Delivery env log event arguments options listeners context t o := by
  unfold deliver notify at plays
  split at plays
  case isTrue taken =>
    have named : listenerName ∈ options.keys := by simpa using taken.2
    cases plays with
    | pause => exact .refused taken.1 named nofun
    | done => exact .refused taken.1 named fun r same => (Option.some.inj same).symm
  case isFalse =>
    rcases Plays.of_notify plays with ⟨rfl, rfl⟩ | ⟨n, asks, ⟨rfl, rfl⟩ | ⟨h, xs, u, rfl, hears, plays⟩⟩
    · exact .begun
    · exact .calling asks
    · obtain ⟨results, rfl, told⟩ := told n h u xs rfl asks hears
      exact .told asks told fun gathers => reports_of_plays gathers plays

end Event

namespace World
variable {first w : World σ} {log : List (Moment σ)}

/-- What comes of the failures of listeners, and when it is what it is meant to be. -/
theorem Records.failures_reported (threads : first.threads = []) (turns : first.turns = [])
    (run : Records env Act.Patient [] first log w) {i : Nat} {m : Moment σ}
    {before after : List (Moment σ)} (split : own i log = before ++ m :: after) {event : String}
    {arguments : List Value} {options : Assoc Value}
    (emits : m.deed = .asks (.effect (.emit event arguments options)))
    (outlet : env.dispatcher.events.check "emit" = .ok ()) :
    (∃ t rest o, after = t ++ rest ∧ (o = none → rest = [] ∧ ∀ r, w.state? i ≠ some (.finished r)) ∧
      Event.Course env event arguments options (fun listeners _ x later o => ∀ context,
        x = .ok ⟨context, false⟩ →
          Event.Delivery env log event arguments options listeners context later o) t o) ∧
    (∀ results, Event.faultsOf results = Event.raisedBy results ↔ ∀ e ∈ results, Event.Plain e.2) ∧
    ∀ listener f, (Notice.listenerFailed event (env.host.name listener) f).level = .error := by
  refine ⟨?_, fun results => Event.faultsOf_eq_raisedBy_iff, fun listener f => rfl⟩
  obtain ⟨t, rest, o, rfl, unfinished, course⟩ :=
    run.emission_course threads (fun _ ha => ha) split emits outlet
  refine ⟨t, rest, o, rfl, unfinished, course.imp ?_⟩
  rintro pre listeners vs x later o rfl - goesOn context rfl
  refine Event.delivery_of_plays (fun n h u xs part asks hears => ?_) goesOn
  have mine : own i log = (before ++ m :: pre) ++ n :: h :: (u ++ rest) := by simp [split, part]
  exact run.told threads turns (fun _ ha => ha) mine asks hears

/-- Two listeners that end with these results. -/
def gongHost (first second : Except Fault Value) : Host Unit where
  __ := Host.silent
  listener h _ _ := .done (if h = ⟨0⟩ then first else second)

def gongEnv (first second : Except Fault Value) : Surroundings Unit :=
  ⟨gongHost first second, { registry := ⟨[]⟩ }⟩

def gongWorld : World Unit where
  shared := { host := (), clock := default, subscribers := { listeners := [("gong", [⟨0⟩, ⟨1⟩])] } }

def striking : Script Unit Unit :=
  .ask (.effect (.emit "gong" [] [])) fun r => .done (r.map fun _ => .none)

def gongRun (first second : Except Fault Value) : List (Moment Unit) × World Unit :=
  World.follow (gongEnv first second) (some (.perform striking) :: List.replicate 17 none) [] gongWorld

theorem gongRun_recorded (first second : Except Fault Value) : Records (gongEnv first second)
    Act.Patient [] gongWorld (gongRun first second).1 (gongRun first second).2 := by
  refine Records.start.follow fun a ha => ?_
  obtain rfl : a = .perform striking := by simpa [List.mem_replicate] using ha
  trivial

/-- A fault is raised and reported, and what the other listener returns is not. -/
theorem gong_reported : let env := gongEnv (.error .noFirst) (.ok .none)
    let run := gongRun (.error .noFirst) (.ok .none)
    ∃ b m t rest o, own 0 run.1 = [b] ++ m :: (t ++ rest) ∧
      m.deed = .asks (.effect (.emit "gong" [] [])) ∧ o ≠ none ∧
      Event.Course env "gong" [] [] (fun listeners _ x later o => ∀ context,
        x = .ok ⟨context, false⟩ → Event.Delivery env run.1 "gong" [] [] listeners context later o) t o ∧
      Event.faultsOf [(⟨0⟩, .error .noFirst), (⟨1⟩, .ok .none)] = [(⟨0⟩, .noFirst)] := by
  intro env run
  obtain ⟨b, m, after, split, emits⟩ : ∃ b m after, own 0 run.1 = [b] ++ m :: after ∧
      m.deed = .asks (.effect (.emit "gong" [] [])) := ⟨_, _, _, rfl, rfl⟩
  obtain ⟨⟨t, rest, o, rfl, unfinished, course⟩, exact, -⟩ :=
    Records.failures_reported rfl rfl (gongRun_recorded _ _) split emits rfl
  refine ⟨b, m, t, rest, o, split, emits, fun none => (unfinished none).2 _ rfl, course, ?_⟩
  refine (exact _).2 (List.forall_mem_cons.2 ⟨?_, List.forall_mem_singleton.2 ?_⟩)
  · exact Event.plain_iff.2 rfl
  · exact Event.plain_iff.2 rfl

/-- A fault that no handler stops. -/
def lost : Fault := .raised { label := "BaseException", severity := .fatal } (some "lost")

/-- A fatal fault that is raised goes unreported and does not leave the emission either, and a fault that is
returned is reported as if it had been raised. -/
theorem gong_misreported : ∃ t n h e s u context,
    own 0 (gongRun (.error lost) (.ok (.fault .noFirst))).1 = t ++ n :: h :: e :: s :: u ∧
    n.deed = .asks (.notify [⟨0⟩, ⟨1⟩] [] []) ∧
    h.deed = .hears (.ok [.error lost, .ok (.fault .noFirst)]) ∧
    e.deed = .asks (.effect (.note (.listenerFailed "gong" "" .noFirst))) ∧
    s.deed = .asks (.sweep .after "gong" 0 context) ∧
    context.find? "errors" = some (.list [.fault .noFirst]) ∧
    (gongRun (.error lost) (.ok (.fault .noFirst))).2.state? 0 =
      some (.finished (.value (.ok .none))) :=
  ⟨[_, _, _, _, _], _, _, _, _, _, _, rfl, rfl, rfl, rfl, rfl, rfl, rfl⟩

end World
end ChatCommands
