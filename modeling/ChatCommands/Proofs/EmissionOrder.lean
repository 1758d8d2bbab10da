import Mathlib
import ChatCommands.Proofs.MiddlewareSweeps
import ChatCommands.Proofs.StartOrder
import ChatCommands.Proofs.TurnsEnd

set_option autoImplicit false

/-!
# The order of an emission

An emission looks up the listeners, sweeps through the middleware, calls all the
listeners unless a middleware has stopped it, gathers the faults that they have
ended with, and sweeps through the middleware once more. The law holds at each
moment of an emission, whatever other threads do and in whatever order the
listeners end.
-/
namespace ChatCommands
variable {σ : Type} {env : Surroundings σ}

namespace Event

/-- The faults that listeners have ended with, each with its listener. -/
def faultsOf (results : List (Hook × Except Fault Value)) : List (Hook × Fault) :=
  results.filterMap fun e => (faultOf? e.2).map (e.1, ·)

/-- What is under `errors` once these faults have been added to it. -/
def withFaults (errors : Option Value) (fs : List Fault) : Option Value :=
  match errors with
  | some (.list items) => some (.list (items ++ fs.map .fault))
  | some v => some v
  | none => if fs = [] then none else some (.list (fs.map .fault))

theorem withFaults_nil (errors : Option Value) : withFaults errors [] = errors := by
  unfold withFaults
  split <;> simp

theorem withFaults_cons (errors : Option Value) (f : Fault) (fs : List Fault) :
    withFaults (withFaults errors [f]) fs = withFaults errors (f :: fs) := by
  unfold withFaults
  rcases errors with _ | v
  · simp
  · cases v <;> simp

/-- The list of the host's in which faults are gathered. -/
def ownList? : Option Value → Option Nat
  | some (.held n) => some n
  | _ => none

/-- A fault is noted and, if they are gathered in a list of the host's, added to that list. -/
def gathering (host : Host σ) (event : String) (errors : Option Value) (e : Hook × Fault) :
    List (Deed σ) :=
  .asks (.effect (.note (.listenerFailed event (host.name e.1) e.2))) ::
    ((ownList? errors).map fun n => .asks (.effect (.host (host.extend n (.fault e.2))))).toList

/-- The faults have been noted and gathered, in the order of the listeners. -/
structure Gathered (env : Surroundings σ) (event : String) (before : EventContext)
    (faults : List (Hook × Fault)) (t : List (Moment σ)) (after : EventContext) : Prop where
  deeds : t.map (·.deed) = faults.flatMap (gathering env.host event (before.find? "errors"))
  errors : after.find? "errors" = withFaults (before.find? "errors") (faults.map (·.2))
  others : ∀ key ≠ "errors", after.find? key = before.find? key

/-- A fault has been added to those in the context, or the list of the host's holds them all. -/
structure Gains (f : Fault) (before after : EventContext) : Prop where
  gathers : Gathers after
  own : ownList? (after.find? "errors") = ownList? (before.find? "errors")
  errors : after.find? "errors" = withFaults (before.find? "errors") [f]
  others : ∀ key ≠ "errors", after.find? key = before.find? key

theorem gains_put {context : EventContext} {f : Fault} {items : List Value}
    (unheld : ownList? (context.find? "errors") = none)
    (listed : withFaults (context.find? "errors") [f] = some (.list items)) :
    Gains f context (context.put "errors" (.list items)) where
  gathers v hv := by
    rw [Assoc.find?_put_self] at hv
    exact .inl ⟨items, (Option.some.inj hv).symm⟩
  own := by
    rw [Assoc.find?_put_self, unheld]
    rfl
  errors := by rw [Assoc.find?_put_self, listed]
  others _ other := Assoc.find?_put_of_ne _ other _

theorem exists_gains {context : EventContext} (gathers : Gathers context) (f : Fault) :
    ∃ context', addFault? f context = .ok (context', ownList? (context.find? "errors")) ∧
      Gains f context context' := by
  unfold addFault?
  cases hv : context.find? "errors" with
  | none => exact ⟨_, rfl, gains_put (by rw [hv]; rfl) (by rw [hv]; rfl)⟩
  | some v =>
    rcases gathers v hv with ⟨items, rfl⟩ | ⟨n, rfl⟩
    · exact ⟨_, rfl, gains_put (by rw [hv]; rfl) (by rw [hv]; rfl)⟩
    · exact ⟨context, rfl, gathers, rfl, by rw [hv]; rfl, fun _ _ => rfl⟩

theorem Gains.gathering {f : Fault} {before after : EventContext} (gains : Gains f before after)
    (host : Host σ) (event : String) :
    gathering host event (after.find? "errors") = gathering host event (before.find? "errors") := by
  funext e
  rw [Event.gathering, Event.gathering, gains.own]

theorem Gathered.cons {event : String} {before middle after : EventContext} {e : Hook × Fault}
    {faults : List (Hook × Fault)} {t u : List (Moment σ)} (gains : Gains e.2 before middle)
    (first : t.map (·.deed) = gathering env.host event (before.find? "errors") e)
    (rest : Gathered env event middle faults u after) :
    Gathered env event before (e :: faults) (t ++ u) after where
  deeds := by rw [List.map_append, first, rest.deeds, gains.gathering, List.flatMap_cons]
  errors := by rw [rest.errors, gains.errors, withFaults_cons, List.map_cons]
  others key other := (rest.others key other).trans (gains.others key other)

/-- The part of the gathering that is about one fault. -/
def gatherOne (host : Host σ) (event : String) (errors : Option Value) (e : Hook × Fault) :
    Engine σ Unit :=
  (Engine.note (.listenerFailed event (host.name e.1) e.2)).bind fun _ =>
    match ownList? errors with
    | none => .done ()
    | some n => (Engine.request (.effect (.host (host.extend n (.fault e.2))))).bind fun _ => .done ()

theorem gatherFaults_cons {event : String} {context context' : EventContext} {h : Hook}
    {r : Except Fault Value} {f : Fault} (failed : faultOf? r = some f)
    (added : addFault? f context = .ok (context', ownList? (context.find? "errors"))) (host : Host σ)
    (results : List (Hook × Except Fault Value)) :
    gatherFaults host event context ((h, r) :: results) =
      (gatherOne host event (context.find? "errors") (h, f)).bind fun _ =>
        gatherFaults host event context' results := by
  simp only [gatherFaults, failed, added, gatherOne]
  cases ownList? (context.find? "errors") <;> rfl

theorem gathering_of_plays {event : String} {errors : Option Value} {e : Hook × Fault}
    {t : List (Moment σ)} {o : Option Unit} (h : Plays env (gatherOne env.host event errors e) t o) :
    t.map (·.deed) <+: gathering env.host event errors e ∧
      ∀ x, o = some x → t.map (·.deed) = gathering env.host event errors e := by
  unfold gatherOne at h
  unfold gathering
  rcases Plays.of_prompt (by trivial) h with ⟨rfl, rfl⟩ | ⟨m, _, _, t, rfl, noted, -, h⟩
  · simp
  cases own : ownList? errors with
  | none =>
    simp only [own] at h
    cases h <;> simp [noted]
  | some n =>
    simp only [own] at h
    rcases Plays.of_prompt (r := .effect (.host (env.host.extend n (.fault e.2)))) (by trivial) h with
      ⟨rfl, rfl⟩ | ⟨m', _, _, t, rfl, grown, -, h⟩
    · simp [noted]
    · cases h <;> simp [noted, grown]

/-- What plays the gathering of faults notes and adds one after the other. -/
theorem gathered_of_plays {event : String} {results : List (Hook × Except Fault Value)}
    {context : EventContext} {t : List (Moment σ)} {o : Option (Except Fault EventContext)}
    (gathers : Gathers context) (h : Plays env (gatherFaults env.host event context results) t o) :
    (o = none ∧ t.map (·.deed) <+:
        (faultsOf results).flatMap (gathering env.host event (context.find? "errors"))) ∨
      ∃ context', o = some (.ok context') ∧ Gathers context' ∧
        Gathered env event context (faultsOf results) t context' := by
  induction results generalizing context t with
  | nil =>
    cases h with
    | pause => exact .inl ⟨rfl, by simp⟩
    | done =>
      refine .inr ⟨context, rfl, gathers, ?_, ?_, fun _ _ => rfl⟩
      · simp [faultsOf]
      · simp [faultsOf, withFaults_nil]
  | cons e results ih =>
    obtain ⟨hook, r⟩ := e
    -- a result that is no fault leaves no trace in what is done
    cases hf : faultOf? r with
    | none =>
      simp only [gatherFaults, hf] at h
      rw [show faultsOf ((hook, r) :: results) = faultsOf results by simp [faultsOf, hf]]
      exact ih gathers h
    | some f =>
      obtain ⟨context', added, gains⟩ := exists_gains gathers f
      rw [gatherFaults_cons hf added] at h
      rw [show faultsOf ((hook, r) :: results) = (hook, f) :: faultsOf results by simp [faultsOf, hf],
        List.flatMap_cons]
      rcases h.of_bind with ⟨rfl, first⟩ | ⟨u, v, x, rfl, first, rest⟩
      · exact .inl ⟨rfl, (gathering_of_plays first).1.trans (List.prefix_append _ _)⟩
      have whole := (gathering_of_plays first).2 x rfl
      rcases ih gains.gathers rest with ⟨rfl, part⟩ | ⟨after, rfl, gathers', gathered⟩
      · refine .inl ⟨rfl, ?_⟩
        rw [List.map_append, whole]
        exact (List.prefix_append_right_inj _).2 (gains.gathering env.host event ▸ part)
      · exact .inr ⟨after, rfl, gathers', .cons gains whole gathered⟩

end Event

/-- The thread has begun the program, and what it has done since plays it. -/
def Performs (env : Surroundings σ) (k : Nat) (log : List (Moment σ)) (b : Moment σ)
    (p : Engine σ (Except Fault Value)) : Prop :=
  b.deed = .begins (p.bind fun r => .done (.value r)) ∧ ∃ t o rest, own k log = b :: (t ++ rest) ∧
    Plays env p t o ∧ (rest = [] ∨ ∃ e x, o = some x ∧ rest = [e] ∧ e.deed = .ends (.value x))

theorem Traced.performs {log : List (Moment σ)} {w : World σ} (traced : Traced env log w) {k : Nat}
    {b : Moment σ} {t : List (Moment σ)} {p : Engine σ (Except Fault Value)}
    (begun : own k log = b :: t) (begins : b.deed = .begins (p.bind fun r => .done (.value r))) :
    Performs env k log b p := by
  refine ⟨begins, ?_⟩
  cases hs : w.state? k with
  | none => simp [traced.unborn k hs] at begun
  | some st =>
    obtain ⟨b', p', t', begun', begins', after⟩ := traced.begun k st hs
    obtain ⟨rfl, rfl⟩ := List.cons.inj (begun.symm.trans begun')
    obtain rfl := Deed.begins.inj (begins.symm.trans begins')
    rcases after.plays with ⟨u, e, r, rfl, rfl, ends, plays⟩ | ⟨-, plays⟩
    · rcases plays.of_bind with ⟨⟨⟩, -⟩ | ⟨u, v, x, rfl, first, second⟩
      cases second
      exact ⟨u, some x, [e], by simpa using begun, first, .inr ⟨e, x, rfl, rfl, ends⟩⟩
    · rcases plays.of_bind with ⟨-, first⟩ | ⟨u, v, x, rfl, first, second⟩
      · exact ⟨t, none, [], by simpa using begun, first, .inl rfl⟩
      · cases second
        exact ⟨u, some x, [], begun, first, .inl rfl⟩

/-- Listeners were called: each has a thread of its own that has begun to run it with the arguments, and
no other thread has begun with these. The threads do the first thing in the order of the listeners, and all
have done it when no turn is due. -/
structure Called (env : Surroundings σ) (log : List (Moment σ)) (w : World σ) (n : Moment σ)
    (listeners : List Hook) (arguments : List Value) (options : Assoc Value) : Prop where
  asked : n.deed = .asks (.notify listeners arguments options)
  performed : ∀ (j : Nat) (h : Hook), listeners[j]? = some h →
    ∃ b : Moment σ, b.before = n.before ∧ Performs env (n.before.threads.length + j) log b
      (Engine.runScript (env.host.listener h arguments options))
  only : ∀ b ∈ log, b.before.threads.length < n.before.threads.length + listeners.length →
    b.thread < n.before.threads.length + listeners.length
  ordered : ∀ i j, i < j → j < listeners.length → Idle log (n.before.threads.length + i) →
    Idle log (n.before.threads.length + j)
  started : w.turns = [] → ∀ j < listeners.length, ¬ Idle log (n.before.threads.length + j)

/-- When the results were told, the threads of the listeners had ended with them. -/
structure Told (env : Surroundings σ) (log : List (Moment σ)) (n h : Moment σ) (listeners : List Hook)
    (arguments : List Value) (options : Assoc Value) (results : List (Except Fault Value)) : Prop where
  told : h.deed = .hears (.ok results)
  length : results.length = listeners.length
  completed : ∃ earlier later, log = earlier ++ h :: later ∧
    ∀ (j : Nat) (k : Hook) (x : Except Fault Value), listeners[j]? = some k → results[j]? = some x →
      Completes env (n.before.threads.length + j) earlier
        (Engine.runScript (env.host.listener k arguments options)) x

namespace Event

section
variable (env : Surroundings σ) (log : List (Moment σ)) (w : World σ) (event : String)
  (arguments : List Value) (options : Assoc Value) (s : Subscribers)

/-- Once the results of the listeners are there, their faults are gathered, and all middleware are
called with the context that has them. -/
inductive Concludes (context : EventContext) (results : List (Hook × Except Fault Value)) :
    List (Moment σ) → Option Unit → Prop where
  | gathering {t : List (Moment σ)} (part : t.map (·.deed) <+:
        (faultsOf results).flatMap (gathering env.host event (context.find? "errors"))) :
      Concludes context results t none
  | finishing {t u : List (Moment σ)} {context' : EventContext} {o : Option Swept}
      (gathered : Gathered env event context (faultsOf results) t context')
      (sweep : Sweeps env .after event 0 s.middleware context' u o) :
      Concludes context results (t ++ u) (o.map fun _ => ())

/-- Once all middleware have let the event pass, the listeners are called, and their results are told
together. -/
inductive Delivers (context : EventContext) : List (Moment σ) → Option Unit → Prop where
  | pause : Delivers context [] none
  | calling {n : Moment σ} (called : Called env log w n (s.listenersOf event) arguments options) :
      Delivers context [n] none
  | concluding {n h : Moment σ} {results : List (Except Fault Value)} {t : List (Moment σ)}
      {o : Option Unit} (called : Called env log w n (s.listenersOf event) arguments options)
      (told : Told env log n h (s.listenersOf event) arguments options results)
      (rest : Concludes env event s context ((s.listenersOf event).zip results) t o) :
      Delivers context (n :: h :: t) o

/-- An emission among these subscribers, so far or to its end. -/
inductive Emission : List (Moment σ) → Option Unit → Prop where
  | begun : Emission [] none
  | preparing {a : Moment σ} {t : List (Moment σ)} (looks : a.deed = .asks (.listeners event))
      (sweep : Sweeps env .before event 0 s.middleware (context event arguments options) t none) :
      Emission (a :: t) none
  | stopped {a : Moment σ} {t : List (Moment σ)} {c : EventContext}
      (looks : a.deed = .asks (.listeners event))
      (sweep : Sweeps env .before event 0 s.middleware (context event arguments options) t
        (some ⟨c, true⟩)) : Emission (a :: t) (some ())
  | delivering {a : Moment σ} {t u : List (Moment σ)} {c : EventContext} {o : Option Unit}
      (looks : a.deed = .asks (.listeners event))
      (sweep : Sweeps env .before event 0 s.middleware (context event arguments options) t
        (some ⟨c, false⟩))
      (rest : Delivers env log w event arguments options s c u o) : Emission (a :: (t ++ u)) o

end

variable {log : List (Moment σ)} {w : World σ} {event : String} {arguments : List Value}
  {options : Assoc Value} {s : Subscribers} {t : List (Moment σ)}

/-- What is left of an emission after a sweep. -/
def afterSweep (next : EventContext → Engine σ (Except Fault Unit)) :
    Except Fault Swept → Engine σ (Except Fault Unit)
  | .error f => .done (.error f)
  | .ok ⟨_, true⟩ => .done (.ok ())
  | .ok ⟨c, false⟩ => next c

/-- What is left of an emission when the results of the listeners are there. -/
def conclude (host : Host σ) (event : String) (context : EventContext)
    (results : List (Hook × Except Fault Value)) : Engine σ (Except Fault Unit) :=
  (gatherFaults host event context results).bind fun
    | .error f => .done (.error f)
    | .ok c => (Engine.request (.sweep .after event 0 c)).bind fun r => .done (r.map fun _ => ())

/-- What is left of an emission when it has passed all middleware. -/
def deliver (host : Host σ) (event : String) (listeners : List Hook) (arguments : List Value)
    (options : Assoc Value) (context : EventContext) : Engine σ (Except Fault Unit) :=
  (notify listeners arguments options).bind fun
    | .error f => .done (.error f)
    | .ok results => conclude host event context (listeners.zip results)

theorem emitFreely_eq (host : Host σ) (event : String) (arguments : List Value)
    (options : Assoc Value) : emitFreely host event arguments options =
      (Engine.request (.listeners event)).bind fun listeners =>
        (Engine.request (.sweep .before event 0 (context event arguments options))).bind
          (afterSweep (deliver host event listeners arguments options)) := by
  unfold emitFreely
  refine congrArg (Program.bind _) (funext fun listeners => ?_)
  refine congrArg (Program.bind _) (funext fun swept => ?_)
  rcases swept with f | ⟨c, stopped⟩
  · rfl
  cases stopped
  · refine congrArg (Program.bind _) (funext fun results => ?_)
    rcases results with f | results
    · rfl
    · refine congrArg (Program.bind _) (funext fun gathered => ?_)
      rcases gathered with f | c
      · rfl
      · refine congrArg (Program.bind _) (funext fun again => ?_)
        rcases again with f | c <;> rfl
  · rfl

theorem concludes_of_plays {context : EventContext} {results : List (Hook × Except Fault Value)}
    {o : Option (Except Fault Unit)} (tame : Tame env t)
    (steady : ∀ d ∈ t, d.before.shared.subscribers = s) (gathers : Gathers context)
    (h : Plays env (conclude env.host event context results) t o) :
    ∃ o', o = o'.map .ok ∧ Concludes env event s context results t o' := by
  rcases h.of_bind with ⟨rfl, first⟩ | ⟨u, v, x, rfl, first, plays⟩
  · rcases gathered_of_plays gathers first with ⟨-, part⟩ | ⟨_, ⟨⟩, -⟩
    exact ⟨none, rfl, .gathering part⟩
  rcases gathered_of_plays gathers first with ⟨⟨⟩, -⟩ | ⟨context', ⟨⟩, gathers', gathered⟩
  have swept : ∀ {u : List (Moment σ)} {o : Option (Except Fault Swept)}, u <:+: v →
      Plays env (Engine.request (.sweep .after event 0 context')) u o →
      ∃ o', o = o'.map .ok ∧ Sweeps env .after event 0 s.middleware context' u o' := by
    intro u o part plays
    obtain ⟨o', same, sweep, -⟩ := sweeps_of_plays (s := s) rfl
      (tame.mono (part.trans (List.suffix_append _ v).isInfix))
      (fun d hd => steady d (List.mem_append_right _ (part.subset hd))) gathers' plays
    exact ⟨o', same, sweep⟩
  rcases plays.of_bind with ⟨rfl, first⟩ | ⟨v, v', x, rfl, first, plays⟩
  · obtain ⟨o', same, sweep⟩ := swept (List.infix_refl _) first
    cases o' with
    | none => exact ⟨none, rfl, .finishing gathered sweep⟩
    | some x => cases same
  · obtain ⟨o', same, sweep⟩ := swept (List.prefix_append _ _).isInfix first
    cases o' with
    | none => cases same
    | some y =>
      obtain rfl := Option.some.inj same
      cases plays with
      | pause => exact ⟨none, rfl, by simpa using .finishing gathered sweep.cut⟩
      | done => exact ⟨some (), rfl, by simpa using .finishing gathered sweep⟩

/-- The requests that notify the listeners of the event in these moments are as the record says, and so
are the results that are told. -/
structure Notified (env : Surroundings σ) (log : List (Moment σ)) (w : World σ)
    (listeners : List Hook) (arguments : List Value) (options : Assoc Value)
    (t : List (Moment σ)) : Prop where
  called : ∀ n ∈ t, n.deed = .asks (.notify listeners arguments options) →
    Called env log w n listeners arguments options
  told : ∀ before n h after xs, t = before ++ n :: h :: after →
    n.deed = .asks (.notify listeners arguments options) → h.deed = .hears xs →
      ∃ results, xs = .ok results ∧ Told env log n h listeners arguments options results

theorem Notified.suffix {listeners : List Hook} {u : List (Moment σ)}
    (notified : Notified env log w listeners arguments options (u ++ t)) :
    Notified env log w listeners arguments options t where
  called n hn := notified.called n (List.mem_append_right u hn)
  told before n h after xs split :=
    notified.told (u ++ before) n h after xs (by rw [split, List.append_assoc])

theorem delivers_of_plays {context : EventContext} {o : Option (Except Fault Unit)}
    (named : listenerName ∉ options.keys) (tame : Tame env t)
    (steady : ∀ d ∈ t, d.before.shared.subscribers = s)
    (notified : Notified env log w (s.listenersOf event) arguments options t)
    (gathers : Gathers context)
    (h : Plays env (deliver env.host event (s.listenersOf event) arguments options context) t o) :
    ∃ o', o = o'.map .ok ∧ Delivers env log w event arguments options s context t o' := by
  have free : notify (s.listenersOf event) arguments options =
      (Engine.request (.notify (s.listenersOf event) arguments options) : Engine σ _) := by
    rw [notify, if_neg]
    rintro ⟨-, mem⟩
    exact named (by simpa using mem)
  rw [deliver, free] at h
  rcases Plays.of_notify h with ⟨rfl, rfl⟩ | ⟨n, asks, ⟨rfl, rfl⟩ | ⟨m, xs, u, rfl, hears, plays⟩⟩
  · exact ⟨none, rfl, .pause⟩
  · exact ⟨none, rfl, .calling (notified.called n (by simp) asks)⟩
  · obtain ⟨results, rfl, told⟩ := notified.told [] n m u xs rfl asks hears
    obtain ⟨o', rfl, rest⟩ := concludes_of_plays (tame.mono ⟨[n, m], [], by simp⟩)
      (fun d hd => steady d (by simp [hd])) gathers plays
    exact ⟨o', rfl, .concluding (notified.called n (by simp) asks) told rest⟩

/-- What plays an emission goes through its stages. -/
theorem emission_of_plays {o : Option (Except Fault Unit)}
    (named : ∀ name ∈ options.keys, name ∉ emissionNames ∧ name ≠ listenerName) (tame : Tame env t)
    (steady : ∀ d ∈ t, d.before.shared.subscribers = s)
    (notified : Notified env log w (s.listenersOf event) arguments options t)
    (h : Plays env (emit env.host event arguments options) t o) :
    ∃ o', o = o'.map .ok ∧ Emission env log w event arguments options s t o' := by
  have free : options.keys.find? (emissionNames.contains ·) = none := by
    rw [List.find?_eq_none]
    intro name mem
    simpa using (named name mem).1
  simp only [emit, free, emitFreely_eq] at h
  rcases Plays.of_prompt (by trivial) h with ⟨rfl, rfl⟩ | ⟨a, _, _, t, rfl, looks, answer, plays⟩
  · exact ⟨none, rfl, .begun⟩
  cases answer
  rw [steady a (by simp)] at plays
  have swept : ∀ {u : List (Moment σ)} {o : Option (Except Fault Swept)}, u <:+: t →
      Plays env (Engine.request (.sweep .before event 0 (context event arguments options))) u o →
      ∃ o', o = o'.map .ok ∧ Sweeps env .before event 0 s.middleware
        (context event arguments options) u o' ∧ ∀ x, o' = some x → Gathers x.context := by
    intro u o part plays
    exact sweeps_of_plays (s := s) rfl (tame.mono (List.infix_cons part))
      (fun d hd => steady d (List.mem_cons_of_mem a (part.subset hd))) (gathers_context _ _ _) plays
  rcases plays.of_bind with ⟨rfl, first⟩ | ⟨u, v, x, rfl, first, plays⟩
  · obtain ⟨o', same, sweep, -⟩ := swept (List.infix_refl _) first
    cases o' with
    | none => exact ⟨none, rfl, .preparing looks sweep⟩
    | some x => cases same
  obtain ⟨o', same, sweep, gathers⟩ := swept (List.prefix_append _ _).isInfix first
  cases o' with
  | none => cases same
  | some y =>
    obtain rfl := Option.some.inj same
    obtain ⟨c, stopped⟩ := y
    cases stopped with
    | true =>
      cases plays with
      | pause => exact ⟨none, rfl, by simpa using .preparing looks sweep.cut⟩
      | done => exact ⟨some (), rfl, by simpa using .stopped looks sweep⟩
    | false =>
      have later : v <:+: a :: (u ++ v) := (List.suffix_append (a :: u) v).isInfix
      obtain ⟨o', rfl, rest⟩ := delivers_of_plays (fun mem => (named _ mem).2 rfl) (tame.mono later)
        (fun d hd => steady d (later.subset hd)) (Notified.suffix (u := a :: u) notified)
        (gathers _ rfl) plays
      exact ⟨o', rfl, .delivering looks sweep rest⟩

end Event

/-- What a thread does after a request that is unfolded plays what the request stands for. -/
theorem Traced.of_expands {log : List (Moment σ)} {w : World σ} (traced : Traced env log w) {i : Nat}
    {m : Moment σ} {before after : List (Moment σ)} (split : own i log = before ++ m :: after)
    {r : EngineRequest σ} {q : Engine σ r.Answer} (asks : m.deed = .asks r) (expands : Expands env r q)
    (unanswered : ∀ s x s', ¬ Answers env s r x s') :
    ∃ t rest o, after = t ++ rest ∧ Plays env q t o ∧
      (o = none → rest = [] ∧ ∀ x, w.state? i ≠ some (.finished x)) := by
  cases hs : w.state? i with
  | none => simp [traced.unborn i hs] at split
  | some st =>
    obtain ⟨b, p, T, begun, begins, after'⟩ := traced.begun i st hs
    rw [begun] at split
    rcases List.cons_eq_append_iff.1 split with ⟨rfl, here⟩ | ⟨before, rfl, later⟩
    · obtain ⟨rfl, -⟩ := List.cons.inj here
      cases begins.symm.trans asks
    rcases after'.plays with ⟨u, e, r, rfl, rfl, ends, plays⟩ | ⟨unfinished, plays⟩
    · rcases split_append later with ⟨kept, whole, rfl⟩ | ⟨more, rfl, last⟩
      · obtain ⟨t, rest, o, rfl, plays, broken⟩ := plays.of_expands expands unanswered whole asks
        refine ⟨t, rest ++ [e], o, by simp, plays, fun none => ?_⟩
        cases (broken none).2
      · obtain ⟨-, rfl⟩ := eq_of_singleton_eq last
        cases ends.symm.trans asks
    · obtain ⟨t, rest, o, rfl, plays, broken⟩ := plays.of_expands expands unanswered later asks
      exact ⟨t, rest, o, rfl, plays, fun none => ⟨(broken none).1, by simpa using unfinished⟩⟩

namespace World
variable {first w : World σ} {log : List (Moment σ)}

/-- A thread that has not ended goes on, or the host can go on with it or one of its own. -/
theorem Attended.pending (hw : w.Attended) {i : Nat} {st : ThreadState σ} (state : w.state? i = some st)
    (unfinished : ∀ r, w.state? i ≠ some (.finished r)) :
    ∃ root, w.root? i = some root ∧
      (w.HasTurn root ∨ ∃ waiting, w.waitingFor? root = some waiting) := by
  obtain ⟨t, ht, -⟩ := exists_thread state
  have own : w.root? i = some t.root := by simp [root?, ht]
  refine ⟨t.root, own, (hw.goes_on own).resolve_left ?_⟩
  rintro ⟨r, finished⟩
  exact unfinished r (state?_of_finish? finished)

/-- If all that the threads do ends, then the end of each is inevitable. -/
theorem Attended.ends {permitted : Act σ → Prop} (answerable : ∀ i, ∃ x, permitted (.answer i x))
    (hw : w.Attended) {i : Nat} {st : ThreadState σ} (state : w.state? i = some st)
    (winding : w.Winding env) :
    Inevitable env permitted (fun w => ∃ r, w.finish? i = some r) w := by
  obtain ⟨t, ht, -⟩ := exists_thread state
  refine winding.inevitable (fun w => w.Attended ∧ w.root? i = some t.root)
    ⟨hw, by simp [root?, ht]⟩ ?_ ?_
  · rintro w w' ⟨hw, own⟩ (due | ⟨state, x, permits⟩)
    · exact ⟨hw.tick env, root?_tick own⟩
    · exact ⟨hw.act env _, root?_act own _⟩
  · rintro w ⟨hw, own⟩
    obtain finished | ⟨turn, due, -⟩ | ⟨waiting, waits⟩ := hw.goes_on own
    · exact .inl finished
    · exact .inr ⟨_, .turn (List.ne_nil_of_mem due)⟩
    · obtain ⟨j, next, state⟩ := exists_waiting waits
      obtain ⟨x, permits⟩ := answerable j
      exact .inr ⟨_, .answer state x permits⟩

/-- In a run from the beginning, what is told is what the listeners have ended with. -/
theorem Records.told {permitted : Act σ → Prop} (run : Records env permitted [] first log w)
    (threads : first.threads = []) (turns : first.turns = []) (patient : ∀ a, permitted a → a.Patient)
    {i : Nat} {before after : List (Moment σ)} {n h : Moment σ}
    (split : own i log = before ++ n :: h :: after) {listeners : List Hook} {arguments : List Value}
    {options : Assoc Value} (asks : n.deed = .asks (.notify listeners arguments options))
    {xs : Except Fault (List (Except Fault Value))} (hears : h.deed = .hears xs) :
    ∃ results, xs = .ok results ∧ Told env log n h listeners arguments options results := by
  have mine : own i log = (before ++ [n]) ++ h :: after := by simpa using split
  obtain ⟨earlier, later, rfl, own_earlier⟩ := exists_split_of_own mine
  have thread : h.thread = i := (mem_own.1 (mine ▸ by simp : h ∈ own i (earlier ++ h :: later))).2
  obtain ⟨c, u, listeners', arguments', options', results, last, asks', rfl, length, completed⟩ :=
    run.heard (.of_empty threads) (.nil env first) (joined_of_empty threads turns) patient
      (fun _ hm => by cases hm) rfl hears
  rw [thread, own_earlier] at last
  obtain ⟨-, same⟩ := List.append_inj' last rfl
  obtain rfl := (List.cons.inj same).1
  cases asks.symm.trans asks'
  exact ⟨results, rfl, hears, length, earlier, later, rfl, completed⟩

/-- In a run from the beginning, listeners are called in order, and what is told is what they have
ended with. -/
theorem Records.notified (run : Records env Act.Fair [] first log w) (threads : first.threads = [])
    (turns : first.turns = []) {i : Nat} {before t after : List (Moment σ)}
    (split : own i log = before ++ t ++ after) (listeners : List Hook) (arguments : List Value)
    (options : Assoc Value) : Event.Notified env log w listeners arguments options t where
  called := by
    intro n hn asks
    have traced := run.traced (.of_empty threads) fun a ha => ha.patient
    have logged : n ∈ log := by
      have mine : n ∈ own i log := by simp [split, hn]
      exact (mem_own.1 mine).1
    have summons := run.summoned (.of_empty threads) (.nil env first) (fun a ha => ha.patient)
      n logged _ _ _ asks
    have order := run.inOrder threads turns fun a ha => ha
    refine ⟨asks, fun j h hj => ?_, summons.only, fun a b hab hb idle => ?_, fun rest j hj idle => ?_⟩
    · obtain ⟨u, begun⟩ := summons.begun j h hj
      exact ⟨⟨_, n.before, .begins _⟩, rfl, traced.performs begun rfl⟩
    · obtain ⟨u, begun⟩ := summons.begun b _ (List.getElem?_eq_getElem hb)
      exact order.older _ _ (by omega) idle (by simp [begun])
    · have due := order.due _ idle
      simp [rest] at due
  told := by
    intro earlier n h later xs part asks hears
    have mine : own i log = (before ++ earlier) ++ n :: h :: (later ++ after) := by simp [split, part]
    exact run.told threads turns (fun a ha => ha.patient) mine asks hears

/-- An emission goes through its stages in order. -/
theorem Records.emission_in_order (threads : first.threads = []) (turns : first.turns = [])
    (run : Records env Act.Fair [] first log w) {i : Nat} {m : Moment σ}
    {before after : List (Moment σ)} (split : own i log = before ++ m :: after) {event : String}
    {arguments : List Value} {options : Assoc Value}
    (emits : m.deed = .asks (.effect (.emit event arguments options)))
    (outlet : env.dispatcher.events.check "emit" = .ok ())
    (named : ∀ name ∈ options.keys, name ∉ Event.emissionNames ∧ name ≠ Event.listenerName) :
    ∃ t rest o, after = t ++ rest ∧
      Plays env (Event.emit env.host event arguments options) t o ∧
      (o = none → rest = [] ∧ ∃ root, w.root? i = some root ∧
        (w.HasTurn root ∨ ∃ waiting, w.waitingFor? root = some waiting)) ∧
      (w.Winding env → Inevitable env Act.Fair (fun w => ∃ r, w.finish? i = some r) w) ∧
      (Event.Tame env t →
        (∀ d ∈ t, d.before.shared.subscribers = m.before.shared.subscribers) →
        ∃ o', o = o'.map .ok ∧
          Event.Emission env log w event arguments options m.before.shared.subscribers t o') := by
  have traced := run.traced (.of_empty threads) fun a ha => ha.patient
  obtain ⟨t, rest, o, rfl, plays, unfinished⟩ :=
    traced.of_expands split emits (.emit event arguments options outlet) fun s x s' answered => by
      cases answered with
      | emitNowhere _ _ _ f refused => cases refused.symm.trans outlet
  have attended : w.Attended := by
    obtain ⟨h, reaches, -⟩ := run.reaches .start
    exact reaches.attended (attended_of_empty threads)
  obtain ⟨st, state⟩ : ∃ st, w.state? i = some st := by
    by_contra none
    rw [traced.unborn i (Option.eq_none_iff_forall_ne_some.2 fun st hs => none ⟨st, hs⟩)] at split
    simp at split
  refine ⟨t, rest, o, rfl, plays, fun none => ?_, attended.ends (fun _ => ⟨.ok .none, trivial⟩) state,
    fun tame steady => ?_⟩
  · obtain ⟨nothing, unfinished⟩ := unfinished none
    exact ⟨nothing, attended.pending state unfinished⟩
  · have played : own i log = before ++ [m] ++ t ++ rest := by simpa using split
    exact Event.emission_of_plays named tame steady (run.notified threads turns played _ _ _) plays

/-- One listener waits for the host and the other raises a fault, as does the first middleware. -/
def bellHost : Host Unit where
  __ := Host.silent
  listener h _ _ := if h = ⟨0⟩ then .ask (.effect .wait) .done else .done (.error .noFirst)
  middleware h _ := .done (if h = ⟨2⟩ then .error .noFirst else .ok .none)

def bellEnv : Surroundings Unit := ⟨bellHost, { registry := ⟨[]⟩ }⟩

def bellSubscribers : Subscribers where
  listeners := [("bell", [⟨0⟩, ⟨1⟩])]
  middleware := [.hook ⟨2⟩, .hook ⟨3⟩]

def bellWorld : World Unit where
  shared := { host := (), clock := default, subscribers := bellSubscribers }

def ringing : Script Unit Unit :=
  .ask (.effect (.emit "bell" [] [])) fun r => .done (r.map fun _ => .none)

/-- The bell is rung, and the host goes on with the first listener after the second has ended. -/
def bellRun : List (Moment Unit) × World Unit :=
  World.follow bellEnv (some (.perform ringing) :: List.replicate 13 none ++
    some (.answer 1 (.ok .none)) :: List.replicate 13 none) [] bellWorld

theorem bellRun_recorded : Records bellEnv Act.Fair [] bellWorld bellRun.1 bellRun.2 := by
  refine Records.start.follow fun a ha => ?_
  have shape : a = .perform ringing ∨ a = .answer 1 (.ok .none) := by
    simpa [List.mem_replicate] using ha
  rcases shape with rfl | rfl <;> trivial

theorem bellRun_own : ∃ b m after, own 0 bellRun.1 = [b] ++ m :: after ∧
    m.deed = .asks (.effect (.emit "bell" [] [])) ∧ m.before.shared.subscribers = bellSubscribers ∧
    after.map (·.before.shared.subscribers) = List.replicate 19 bellSubscribers :=
  ⟨_, _, _, rfl, rfl, rfl, rfl⟩

theorem bellHost_tame (t : List (Moment Unit)) : Event.Tame bellEnv t := by
  intro a b u phase event index h context r context' _ _ _ plays
  have ordinary : Ordinary (if h = ⟨2⟩ then .error .noFirst else .ok .none : Except Fault Value) := by
    split
    · exact (ordinary_error _).2 rfl
    · exact ordinary_ok _
  cases plays
  exact ⟨ordinary, id⟩

/-- The bell has been rung to the end. -/
theorem bellRun_in_order : ∃ m ∈ bellRun.1, m.deed = .asks (.effect (.emit "bell" [] [])) ∧
    ∃ t, Event.Emission bellEnv bellRun.1 bellRun.2 "bell" [] [] bellSubscribers t (some ()) := by
  obtain ⟨b, m, after, split, emits, same, steady⟩ := bellRun_own
  have logged : m ∈ bellRun.1 := (mem_own.1 (split ▸ by simp : m ∈ own 0 bellRun.1)).1
  obtain ⟨t, rest, o, rfl, -, pending, -, law⟩ := Records.emission_in_order rfl rfl bellRun_recorded split
    emits rfl (by simp [Assoc.keys])
  have kept : ∀ d ∈ t, d.before.shared.subscribers = m.before.shared.subscribers := by
    intro d hd
    rw [same]
    exact List.eq_of_mem_replicate (steady ▸ List.mem_map_of_mem (List.mem_append_left rest hd))
  obtain ⟨o', rfl, emission⟩ := law (bellHost_tame t) kept
  cases o' with
  | some u => exact ⟨m, logged, emits, t, same ▸ emission⟩
  | none =>
    obtain ⟨-, root, own, ⟨turn, due, -⟩ | ⟨waiting, waits⟩⟩ := pending rfl
    · have idle : bellRun.2.turns = [] := rfl
      simp [idle] at due
    · obtain rfl : 0 = root := Option.some.inj own
      have nobody : bellRun.2.waitingFor? 0 = none := rfl
      cases nobody.symm.trans waits

end World
end ChatCommands
