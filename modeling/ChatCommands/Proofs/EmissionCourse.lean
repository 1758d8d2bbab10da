import Mathlib
import ChatCommands.Proofs.EmissionOrder

set_option autoImplicit false

/-!
# The course of an emission

An emission is over before it begins if its options take a name that it takes
itself. Otherwise it looks up the listeners and calls the middleware that it finds
one after the other, until one stops the event or raises a fatal fault or there is
none left. What each was given and what it left is on record, whatever middleware
comes and goes meanwhile; how the last one ended decides what is done next.
-/
namespace ChatCommands
variable {σ : Type} {env : Surroundings σ}

namespace Event

/-- A call of a middleware: the context that it was given, what it ended with, and the context that it
left. -/
structure Visit where
  middleware : Middleware
  given : EventContext
  result : Except Fault Value
  left : EventContext

/-- The sweep asks for the middleware at an index, finds one and calls it. -/
structure Visits.Calls (env : Surroundings σ) (phase : Phase) (event : String) (index : Nat)
    (a b : Moment σ) (t : List (Moment σ)) (v : Visit) : Prop where
  fetches : Fetches phase event index v.given a b
  fetched : b.before.shared.subscribers.middleware[index]? = some v.middleware
  plays : Plays env (v.middleware.call env.host phase v.given) t (some (v.result, v.left))

/-- A sweep from an index on that has come to its end, with the calls that it made. -/
inductive Visits (env : Surroundings σ) (phase : Phase) (event : String) :
    Nat → EventContext → List (Moment σ) → List Visit → Except Fault Swept → Prop where
  | ended {index : Nat} {context : EventContext} {a b : Moment σ}
      (fetches : Fetches phase event index context a b)
      (none : b.before.shared.subscribers.middleware[index]? = none) :
      Visits env phase event index context [a, b] [] (.ok ⟨context, false⟩)
  | passed {index : Nat} {a b : Moment σ} {t u : List (Moment σ)} {v : Visit} {vs : List Visit}
      {r : Value} {x : Except Fault Swept} (calls : Visits.Calls env phase event index a b t v)
      (returned : v.result = .ok r) (passes : phase = .before → stops r v.left = false)
      (rest : Visits env phase event (index + 1) v.left u vs x) :
      Visits env phase event index v.given (a :: b :: (t ++ u)) (v :: vs) x
  | stopped {index : Nat} {a b e : Moment σ} {t : List (Moment σ)} {v : Visit} {r : Value}
      (calls : Visits.Calls env phase event index a b t v) (returned : v.result = .ok r)
      (before : phase = .before) (stops : stops r v.left = true)
      (noted : e.deed = .asks (.effect (.note (.eventStopped event)))) :
      Visits env phase event index v.given (a :: b :: (t ++ [e])) [v] (.ok ⟨v.left, true⟩)
  | raised {index : Nat} {a b e : Moment σ} {t u : List (Moment σ)} {v : Visit} {vs : List Visit}
      {f : Fault} {x : Except Fault Swept} (calls : Visits.Calls env phase event index a b t v)
      (raised : v.result = .error f) (ordinary : f.isOrdinary = true)
      (noted : e.deed = .asks (.effect (.note
        (.middlewareFailed (env.host.middlewareName v.middleware) (phase = .after) f))))
      (rest : Visits env phase event (index + 1) v.left u vs x) :
      Visits env phase event index v.given (a :: b :: (t ++ e :: u)) (v :: vs) x
  | broken {index : Nat} {a b : Moment σ} {t : List (Moment σ)} {v : Visit} {f : Fault}
      (calls : Visits.Calls env phase event index a b t v) (raised : v.result = .error f)
      (fatal : f.isOrdinary = false) :
      Visits env phase event index v.given (a :: b :: t) [v] (.error f)

variable {phase : Phase} {event : String}

/-- What plays a sweep to its end makes one call after the other. -/
theorem visits_of_plays {index : Nat} {context : EventContext} {t : List (Moment σ)}
    {x : Except Fault Swept}
    (h : Plays env (Engine.request (.sweep phase event index context)) t (some x)) :
    ∃ vs, Visits env phase event index context t vs x := by
  -- on the number of deeds, since how many middleware there are may change meanwhile
  obtain ⟨n, hn⟩ : ∃ n, t.length ≤ n := ⟨_, le_rfl⟩
  induction n generalizing index context t with
  | zero =>
    obtain rfl := List.eq_nil_of_length_eq_zero (Nat.le_zero.1 hn)
    obtain ⟨⟨⟩, -⟩ | ⟨-, -, -, ⟨⟩, -⟩ := fetched_of_plays h
  | succ n ih =>
    rcases fetched_of_plays h with ⟨⟨⟩, -⟩ | ⟨a, b, u, rfl, fetches, plays⟩
    cases fetched : b.before.shared.subscribers.middleware[index]? with
    | none =>
      simp only [fetched] at plays
      cases plays
      exact ⟨[], .ended fetches fetched⟩
    | some m =>
      simp only [fetched] at plays
      rcases plays.of_bind with ⟨⟨⟩, -⟩ | ⟨u, v, ⟨r, left⟩, rfl, call, plays⟩
      have calls : Visits.Calls env phase event index a b u ⟨m, context, r, left⟩ :=
        ⟨fetches, fetched, call⟩
      simp only [List.length_cons, List.length_append] at hn
      cases r with
      | ok r =>
        simp only [afterCall] at plays
        split at plays
        case isTrue stop =>
          rcases Plays.of_prompt (by trivial) plays with ⟨-, ⟨⟩⟩ | ⟨e, _, _, v, rfl, noted, -, plays⟩
          cases plays
          exact ⟨_, .stopped calls rfl stop.1 stop.2 noted⟩
        case isFalse go =>
          obtain ⟨vs, rest⟩ := ih plays (by omega)
          exact ⟨_, .passed calls rfl (fun before => by simpa [before] using go) rest⟩
      | error f =>
        simp only [afterCall] at plays
        split at plays
        case isTrue ordinary =>
          rcases Plays.of_prompt (by trivial) plays with ⟨-, ⟨⟩⟩ | ⟨e, _, _, v, rfl, noted, -, plays⟩
          simp only [List.length_cons] at hn
          obtain ⟨vs, rest⟩ := ih plays (by omega)
          exact ⟨_, .raised calls rfl ordinary noted rest⟩
        case isFalse fatal =>
          cases plays
          exact ⟨_, by simpa using .broken calls rfl (Bool.eq_false_iff.2 fatal)⟩

/-- What a sweep ends with that ends with this call. -/
def Visit.ending? (phase : Phase) (v : Visit) : Option (Except Fault Swept) :=
  match v.result with
  | .ok r => if phase = .before ∧ stops r v.left then some (.ok ⟨v.left, true⟩) else none
  | .error f => if f.isOrdinary then none else some (.error f)

section
variable {v : Visit} {r : Value} {f : Fault}

theorem Visit.ending?_of_passes (returned : v.result = .ok r)
    (passes : phase = .before → stops r v.left = false) : v.ending? phase = none := by
  rw [Visit.ending?, returned]
  refine if_neg fun stop => ?_
  rw [passes stop.1] at stop
  cases stop.2

theorem Visit.ending?_of_stops (returned : v.result = .ok r) (before : phase = .before)
    (stops : stops r v.left = true) : v.ending? phase = some (.ok ⟨v.left, true⟩) := by
  rw [Visit.ending?, returned]
  exact if_pos ⟨before, stops⟩

theorem Visit.ending?_of_ordinary (raised : v.result = .error f) (ordinary : f.isOrdinary = true) :
    v.ending? phase = none := by
  rw [Visit.ending?, raised]
  exact if_pos ordinary

theorem Visit.ending?_of_fatal (raised : v.result = .error f) (fatal : f.isOrdinary = false) :
    v.ending? phase = some (.error f) := by
  rw [Visit.ending?, raised]
  exact if_neg (by simp [fatal])

end

/-- Either there is no middleware at the index, or one was called, and this call decides whether the sweep
goes on. -/
theorem Visits.first {index : Nat} {context : EventContext} {t : List (Moment σ)} {vs : List Visit}
    {x : Except Fault Swept} (h : Visits env phase event index context t vs x) :
    ∃ b ∈ t, (vs = [] ∧ x = .ok ⟨context, false⟩ ∧
        b.before.shared.subscribers.middleware[index]? = none) ∨
      ∃ v vs', vs = v :: vs' ∧ v.given = context ∧
        b.before.shared.subscribers.middleware[index]? = some v.middleware ∧
        (v.ending? phase = some x ∧ vs' = [] ∨
          v.ending? phase = none ∧ ∃ u, u ⊆ t ∧ Visits env phase event (index + 1) v.left u vs' x) := by
  cases h with
  | ended fetches none => exact ⟨_, by simp, .inl ⟨rfl, rfl, none⟩⟩
  | @passed _ a b t u v vs' r _ calls returned passes rest =>
    have later : u ⊆ a :: b :: (t ++ u) := fun d hd => by simp [hd]
    exact ⟨_, by simp, .inr ⟨v, vs', rfl, rfl, calls.fetched,
      .inr ⟨Visit.ending?_of_passes returned passes, u, later, rest⟩⟩⟩
  | @stopped _ _ _ _ _ v _ calls returned before stops =>
    exact ⟨_, by simp, .inr ⟨v, [], rfl, rfl, calls.fetched,
      .inl ⟨Visit.ending?_of_stops returned before stops, rfl⟩⟩⟩
  | @raised _ a b e t u v vs' f _ calls raised ordinary _ rest =>
    have later : u ⊆ a :: b :: (t ++ e :: u) := fun d hd => by simp [hd]
    exact ⟨_, by simp, .inr ⟨v, vs', rfl, rfl, calls.fetched,
      .inr ⟨Visit.ending?_of_ordinary raised ordinary, u, later, rest⟩⟩⟩
  | @broken _ _ _ _ v f calls raised fatal =>
    exact ⟨_, by simp, .inr ⟨v, [], rfl, rfl, calls.fetched,
      .inl ⟨Visit.ending?_of_fatal raised fatal, rfl⟩⟩⟩

/-- The context as the last call has left it. -/
def leftBy (context : EventContext) (vs : List Visit) : EventContext :=
  (vs.getLast?.map (·.left)).getD context

theorem leftBy_cons (context : EventContext) (v : Visit) (vs : List Visit) :
    leftBy context (v :: vs) = leftBy v.left vs := by
  unfold leftBy
  rw [List.getLast?_cons]
  cases vs.getLast? <;> rfl

theorem Visits.context_eq {index : Nat} {context : EventContext} {t : List (Moment σ)} {vs : List Visit}
    {x : Swept} (h : Visits env phase event index context t vs (.ok x)) :
    x.context = leftBy context vs := by
  generalize hx : (.ok x : Except Fault Swept) = y at h
  induction h with
  | ended | stopped =>
    cases hx
    rfl
  | passed _ _ _ _ ih | raised _ _ _ _ _ ih =>
    rw [leftBy_cons]
    exact ih hx
  | broken => cases hx

/-- The part of an emission before the listeners: they are looked up, and the middleware are called. -/
structure Prepared (env : Surroundings σ) (event : String) (arguments : List Value)
    (options : Assoc Value) (pre : List (Moment σ)) (listeners : List Hook) (vs : List Visit)
    (x : Except Fault Swept) : Prop where
  deeds : ∃ a u, pre = a :: u ∧ a.deed = .asks (.listeners event) ∧
    listeners = a.before.shared.subscribers.listenersOf event ∧
    Visits env .before event 0 (context event arguments options) u vs x

/-- What an emission has done: it was refused for the name of an option, it is still among the middleware
before the listeners, or these have been called and a law holds of what it has done since. -/
inductive Course (env : Surroundings σ) (event : String) (arguments : List Value)
    (options : Assoc Value) (law : List Hook → List Visit → Except Fault Swept → List (Moment σ) →
      Option (Except Fault Unit) → Prop) : List (Moment σ) → Option (Except Fault Unit) → Prop where
  | refused {name : String} {o : Option (Except Fault Unit)} (taken : name ∈ options.keys)
      (own : name ∈ emissionNames)
      (result : ∀ r, o = some r → r = .error (.givenTwice "EventSystem.emit" name)) :
      Course env event arguments options law [] o
  | begun : Course env event arguments options law [] none
  | preparing {a : Moment σ} {u : List (Moment σ)} (looks : a.deed = .asks (.listeners event))
      (sweep : Plays env (Engine.request (.sweep .before event 0 (context event arguments options))) u
        none) : Course env event arguments options law (a :: u) none
  | prepared {pre later : List (Moment σ)} {listeners : List Hook} {vs : List Visit}
      {x : Except Fault Swept} {o : Option (Except Fault Unit)}
      (prepared : Prepared env event arguments options pre listeners vs x)
      (holds : law listeners vs x later o) : Course env event arguments options law (pre ++ later) o

theorem Course.imp {law law' : List Hook → List Visit → Except Fault Swept → List (Moment σ) →
      Option (Except Fault Unit) → Prop} {arguments : List Value} {options : Assoc Value}
    {t : List (Moment σ)} {o : Option (Except Fault Unit)}
    (h : Course env event arguments options law t o)
    (imp : ∀ {pre listeners vs x later o}, t = pre ++ later →
      Prepared env event arguments options pre listeners vs x → law listeners vs x later o →
        law' listeners vs x later o) : Course env event arguments options law' t o := by
  cases h with
  | refused taken own result => exact .refused taken own result
  | begun => exact .begun
  | preparing looks sweep => exact .preparing looks sweep
  | prepared prepared holds => exact .prepared prepared (imp rfl prepared holds)

/-- An emission whose middleware have been called goes on with what is left of it. -/
def GoesOn (env : Surroundings σ) (event : String) (arguments : List Value) (options : Assoc Value)
    (listeners : List Hook) (_ : List Visit) (x : Except Fault Swept) (later : List (Moment σ))
    (o : Option (Except Fault Unit)) : Prop :=
  Plays env (afterSweep (deliver env.host event listeners arguments options) x) later o

theorem course_of_plays {arguments : List Value} {options : Assoc Value} {t : List (Moment σ)}
    {o : Option (Except Fault Unit)} (h : Plays env (emit env.host event arguments options) t o) :
    Course env event arguments options (GoesOn env event arguments options) t o := by
  unfold emit at h
  cases clash : options.keys.find? (emissionNames.contains ·) with
  | some name =>
    simp only [clash] at h
    have own : name ∈ emissionNames := by simpa using List.find?_some clash
    have taken := List.mem_of_find?_eq_some clash
    cases h with
    | pause => exact .refused taken own nofun
    | done => exact .refused taken own fun r hr => (Option.some.inj hr).symm
  | none =>
    simp only [clash, emitFreely_eq] at h
    rcases Plays.of_prompt (by trivial) h with ⟨rfl, rfl⟩ | ⟨a, _, _, t, rfl, looks, answer, plays⟩
    · exact .begun
    cases answer
    rcases plays.of_bind with ⟨rfl, first⟩ | ⟨u, v, x, rfl, first, plays⟩
    · exact .preparing looks first
    · obtain ⟨vs, visits⟩ := visits_of_plays first
      exact .prepared ⟨a, u, rfl, looks, rfl, visits⟩ plays

end Event

namespace World
variable {permitted : Act σ → Prop} {first w : World σ} {log : List (Moment σ)}

/-- What a thread does once it has asked for an emission plays the emission, and what comes after it. -/
theorem Records.emission_plays (threads : first.threads = [])
    (run : Records env permitted [] first log w) (patient : ∀ a, permitted a → a.Patient) {i : Nat}
    {m : Moment σ} {before after : List (Moment σ)} (split : own i log = before ++ m :: after)
    {event : String} {arguments : List Value} {options : Assoc Value}
    (emits : m.deed = .asks (.effect (.emit event arguments options)))
    (outlet : env.dispatcher.events.check "emit" = .ok ()) :
    ∃ t rest o, after = t ++ rest ∧ (o = none → rest = [] ∧ ∀ x, w.state? i ≠ some (.finished x)) ∧
      Plays env (Event.emit env.host event arguments options) t o := by
  have traced := run.traced (.of_empty threads) patient
  obtain ⟨t, rest, o, rfl, plays, unfinished⟩ :=
    traced.of_expands split emits (.emit event arguments options outlet) fun s x s' answered => by
      cases answered with
      | emitNowhere _ _ _ f refused => cases refused.symm.trans outlet
  exact ⟨t, rest, o, rfl, unfinished, plays⟩

/-- What a thread does once it has asked for an emission is the course of the emission, and what it does
after it. -/
theorem Records.emission_course (threads : first.threads = [])
    (run : Records env permitted [] first log w) (patient : ∀ a, permitted a → a.Patient) {i : Nat}
    {m : Moment σ} {before after : List (Moment σ)} (split : own i log = before ++ m :: after)
    {event : String} {arguments : List Value} {options : Assoc Value}
    (emits : m.deed = .asks (.effect (.emit event arguments options)))
    (outlet : env.dispatcher.events.check "emit" = .ok ()) :
    ∃ t rest o, after = t ++ rest ∧ (o = none → rest = [] ∧ ∀ x, w.state? i ≠ some (.finished x)) ∧
      Event.Course env event arguments options (Event.GoesOn env event arguments options) t o := by
  obtain ⟨t, rest, o, rfl, unfinished, plays⟩ := run.emission_plays threads patient split emits outlet
  exact ⟨t, rest, o, rfl, unfinished, Event.course_of_plays plays⟩

end World
end ChatCommands
