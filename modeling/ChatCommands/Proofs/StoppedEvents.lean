import Mathlib
import ChatCommands.Proofs.EmissionCourse

set_option autoImplicit false

/-!
# Events that are stopped

A middleware that returns is asked afterwards whether it has marked the context;
one that raises is not. So an event whose context is marked when the middleware
before the listeners are through is stopped, unless it was the last of them that
raised. For the same reason one more middleware that does nothing changes
nothing, unless it comes after one that has marked the context and raised.
-/
namespace ChatCommands
variable {σ τ : Type} {env : Surroundings σ} {env' : Surroundings τ}

namespace Event

/-- The last call has raised a fault that was noted and passed over. -/
def EndsRaised (vs : List Visit) : Prop :=
  ∃ v f, vs.getLast? = some v ∧ v.result = .error f ∧ f.isOrdinary = true

/-- Middleware that are called at the same place with the same context do the same. -/
def Alike (vs vs' : List Visit) : Prop :=
  ∀ (j : Nat) (v v' : Visit), vs[j]? = some v → vs'[j]? = some v' → v.given = v'.given →
    v.result = v'.result ∧ v.left = v'.left

/-- The middleware does nothing. -/
def Visit.Idles (v : Visit) : Prop := v.left = v.given ∧ ∃ r, v.result = .ok r ∧ r ≠ .bool false

theorem Alike.tail {v v' : Visit} {vs vs' : List Visit} (h : Alike (v :: vs) (v' :: vs')) :
    Alike vs vs' := fun j => h (j + 1)

theorem Visit.ending?_congr {v v' : Visit} {phase : Phase} (result : v.result = v'.result)
    (left : v.left = v'.left) : v.ending? phase = v'.ending? phase := by
  simp only [ending?, result, left]

theorem Visit.Idles.ending? {v : Visit} (h : v.Idles) : v.ending? .before =
    if isStopped v.given then some (.ok ⟨v.given, true⟩) else none := by
  obtain ⟨same, r, returned, other⟩ := h
  have asked : stops r v.given = isStopped v.given := by
    unfold stops
    split
    · exact absurd rfl other
    · rfl
  rw [Visit.ending?, returned, same]
  simp [asked]

/-- A sweep goes on after a call whose context is marked only if the call has raised. -/
theorem Visit.raised_of_marked {v : Visit} (goes : v.ending? .before = none)
    (marked : isStopped v.left = true) : ∃ f, v.result = .error f ∧ f.isOrdinary = true := by
  unfold ending? at goes
  split at goes
  case h_1 r _ =>
    have stop : stops r v.left = true := by
      unfold stops
      split <;> trivial
    simp [stop] at goes
  case h_2 f raised => exact ⟨f, raised, by simpa using goes⟩

variable {event : String} {index : Nat} {context c : EventContext} {t : List (Moment σ)}
  {vs : List Visit} {x : Except Fault Swept}

theorem Visits.marked (h : Visits env .before event index context t vs (.ok ⟨c, false⟩))
    (marked : isStopped c = true) : EndsRaised vs ∨ vs = [] := by
  induction vs generalizing index context t with
  | nil => exact .inr rfl
  | cons v vs ih =>
    obtain ⟨b, -, ⟨⟨⟩, -⟩ | ⟨v', vs', same, rfl, -, ⟨ends, rfl⟩ | ⟨goes, u, -, rest⟩⟩⟩ := h.first
    · obtain ⟨rfl, rfl⟩ := List.cons.inj same
      unfold Visit.ending? at ends
      grind
    · obtain ⟨rfl, rfl⟩ := List.cons.inj same
      rcases ih rest with ⟨last, f, isLast, raised, ordinary⟩ | rfl
      · exact .inl ⟨last, f, by rw [List.getLast?_cons, isLast]; rfl, raised, ordinary⟩
      · have left : c = v.left := rest.context_eq
        obtain ⟨f, raised, ordinary⟩ := v.raised_of_marked goes (left ▸ marked)
        exact .inl ⟨v, f, rfl, raised, ordinary⟩

/-- One more middleware that does nothing changes the end of a sweep only where the context is marked. -/
theorem Visits.appended {context : EventContext} {t' : List (Moment τ)} {vs' : List Visit}
    {x' : Except Fault Swept} {ms : List Middleware} {idle : Middleware}
    (h : Visits env .before event index context t vs x)
    (h' : Visits env' .before event index context t' vs' x') (within : index ≤ ms.length)
    (steady : ∀ d ∈ t, d.before.shared.subscribers.middleware = ms)
    (steady' : ∀ d ∈ t', d.before.shared.subscribers.middleware = ms ++ [idle]) (alike : Alike vs vs')
    (idles : ∀ v, vs'[ms.length - index]? = some v → v.Idles) :
    x' = x ∨ ∃ c, x = .ok ⟨c, false⟩ ∧ isStopped c = true := by
  -- both sweeps make the same calls until the shorter list is through
  induction vs generalizing index context t t' vs' with
  | nil =>
    obtain ⟨b, hb, ⟨-, rfl, none⟩ | ⟨_, _, ⟨⟩, -⟩⟩ := h.first
    rw [steady b hb, List.getElem?_eq_none_iff] at none
    obtain rfl : index = ms.length := by omega
    obtain ⟨b', hb', ⟨-, -, none'⟩ | ⟨v', vs'', rfl, rfl, -, more⟩⟩ := h'.first
    · simp [steady' b' hb'] at none'
    -- the idle middleware is all that is left, and what it returns has the mark looked at once more
    have idle := idles v' (by simp)
    rw [idle.ending?] at more
    by_cases marked : isStopped v'.given = true
    · exact .inr ⟨_, rfl, marked⟩
    · simp only [marked, Bool.false_eq_true, if_false] at more
      obtain ⟨⟨⟩, -⟩ | ⟨-, u, part, rest⟩ := more
      obtain ⟨b, hb, ⟨-, rfl, -⟩ | ⟨_, _, -, -, fetched, -⟩⟩ := rest.first
      · rw [idle.1]
        exact .inl rfl
      · simp [steady' b (part hb)] at fetched
  | cons v vs ih =>
    obtain ⟨b, hb, ⟨⟨⟩, -⟩ | ⟨w, ws, same, rfl, fetched, next⟩⟩ := h.first
    obtain ⟨rfl, rfl⟩ := List.cons.inj same
    rw [steady b hb] at fetched
    have inside : index < ms.length := (List.getElem?_eq_some_iff.1 fetched).1
    obtain ⟨b', hb', ⟨-, -, none⟩ | ⟨v', vs'', rfl, given, -, next'⟩⟩ := h'.first
    · rw [steady' b' hb', List.getElem?_eq_none_iff] at none
      simp at none
      omega
    obtain ⟨result, left⟩ := alike 0 v v' rfl rfl given.symm
    rw [← Visit.ending?_congr result left, ← left] at next'
    rcases next with ⟨ends, rfl⟩ | ⟨goes, u, part, rest⟩
    · obtain ⟨ends', -⟩ | ⟨goes, -⟩ := next'
      · exact .inl (Option.some.inj (ends'.symm.trans ends))
      · cases goes.symm.trans ends
    · obtain ⟨ends, -⟩ | ⟨-, u', part', rest'⟩ := next'
      · cases goes.symm.trans ends
      refine ih rest rest' inside (fun d hd => steady d (part hd)) (fun d hd => steady' d (part' hd))
        alike.tail fun i hi => idles i ?_
      rw [show ms.length - index = ms.length - (index + 1) + 1 by omega]
      exact hi

theorem Visits.passes_of_raised (h : Visits env .before event index context t vs x)
    (raised : EndsRaised vs) : x = .ok ⟨leftBy context vs, false⟩ := by
  induction vs generalizing index context t with
  | nil =>
    obtain ⟨v, f, last, -⟩ := raised
    cases last
  | cons v vs ih =>
    obtain ⟨b, -, ⟨⟨⟩, -⟩ | ⟨v', vs', same, rfl, -, next⟩⟩ := h.first
    obtain ⟨rfl, rfl⟩ := List.cons.inj same
    rw [leftBy_cons]
    obtain ⟨last, f, isLast, failed, ordinary⟩ := raised
    rcases next with ⟨ends, rfl⟩ | ⟨-, u, -, rest⟩
    · obtain rfl : v = last := Option.some.inj isLast
      simp [Visit.ending?, failed, ordinary] at ends
    cases vs with
    | nil =>
      obtain ⟨b, -, ⟨-, rfl, -⟩ | ⟨_, _, ⟨⟩, -⟩⟩ := rest.first
      rfl
    | cons w ws =>
      refine ih rest ⟨last, f, ?_, failed, ordinary⟩
      rwa [List.getLast?_cons_cons] at isLast

variable {arguments : List Value} {options : Assoc Value}

/-- If the context is marked when the middleware before the listeners are through, the emission is over,
unless the last of them has raised; then it goes on. -/
structure HeedsMark (env : Surroundings σ) (event : String) (arguments : List Value)
    (options : Assoc Value) (listeners : List Hook) (vs : List Visit) (x : Except Fault Swept)
    (later : List (Moment σ)) (o : Option (Except Fault Unit)) : Prop where
  goesOn : GoesOn env event arguments options listeners vs x later o
  stopped : isStopped (leftBy (Event.context event arguments options) vs) = true → ¬ EndsRaised vs →
    later = [] ∧ ∀ r, o = some r → r = x.map fun _ => ()
  passed : EndsRaised vs → x = .ok ⟨leftBy (Event.context event arguments options) vs, false⟩

theorem GoesOn.heedsMark {pre later : List (Moment σ)} {listeners : List Hook}
    {o : Option (Except Fault Unit)}
    (prepared : Prepared env event arguments options pre listeners vs x)
    (goesOn : GoesOn env event arguments options listeners vs x later o) :
    HeedsMark env event arguments options listeners vs x later o := by
  obtain ⟨a, u, -, -, -, visits⟩ := prepared.deeds
  refine ⟨goesOn, fun marked unraised => ?_, visits.passes_of_raised⟩
  have ended {y : Except Fault Unit} (plays : Plays env (.done y) later o) :
      later = [] ∧ ∀ r, o = some r → r = y := by
    cases plays with
    | pause => exact ⟨rfl, nofun⟩
    | done => exact ⟨rfl, fun r same => (Option.some.inj same).symm⟩
  rcases x with f | ⟨c, _ | _⟩
  · exact ended goesOn
  · obtain rfl : c = _ := visits.context_eq
    rcases visits.marked marked with raised | rfl
    · exact absurd raised unraised
    · cases marked
  · exact ended goesOn

end Event

namespace World
variable {first w : World σ} {log : List (Moment σ)}

/-- An event that is marked is stopped unless the last middleware has raised, and else one more middleware
that does nothing makes no difference. -/
theorem Records.marked_event_stops (threads : first.threads = [])
    (run : Records env Act.Patient [] first log w) {i : Nat} {m : Moment σ}
    {before after : List (Moment σ)} (split : own i log = before ++ m :: after) {event : String}
    {arguments : List Value} {options : Assoc Value}
    (emits : m.deed = .asks (.effect (.emit event arguments options)))
    (outlet : env.dispatcher.events.check "emit" = .ok ()) :
    (∃ t rest o, after = t ++ rest ∧ (o = none → rest = [] ∧ ∀ r, w.state? i ≠ some (.finished r)) ∧
      Event.Course env event arguments options (Event.HeedsMark env event arguments options) t o) ∧
    ∀ (env' : Surroundings τ) pre pre' listeners listeners' vs vs' x x' ms idle,
      Event.Prepared env event arguments options pre listeners vs x →
      Event.Prepared env' event arguments options pre' listeners' vs' x' →
      (∀ d ∈ pre, d.before.shared.subscribers.middleware = ms) →
      (∀ d ∈ pre', d.before.shared.subscribers.middleware = ms ++ [idle]) →
      Event.Alike vs vs' → (∀ v, vs'[ms.length]? = some v → v.Idles) →
      ¬ (Event.isStopped (Event.leftBy (Event.context event arguments options) vs) = true ∧
        Event.EndsRaised vs) → x' = x := by
  constructor
  · obtain ⟨t, rest, o, rfl, unfinished, course⟩ :=
      run.emission_course threads (fun _ ha => ha) split emits outlet
    exact ⟨t, rest, o, rfl, unfinished, course.imp fun _ prepared goesOn => goesOn.heedsMark prepared⟩
  · intro env' pre pre' listeners listeners' vs vs' x x' ms idle prepared prepared' steady steady' alike
      idles heeded
    obtain ⟨a, u, rfl, -, -, visits⟩ := prepared.deeds
    obtain ⟨a', u', rfl, -, -, visits'⟩ := prepared'.deeds
    refine (visits.appended visits' (Nat.zero_le _) (fun d hd => steady d (List.mem_cons_of_mem _ hd))
      (fun d hd => steady' d (List.mem_cons_of_mem _ hd)) alike idles).resolve_right ?_
    rintro ⟨c, rfl, marked⟩
    obtain rfl : c = _ := visits.context_eq
    rcases visits.marked marked with raised | rfl
    · exact heeded ⟨marked, raised⟩
    · cases marked

/-- The first middleware marks the context and raises a fault, the others do nothing. -/
def tollHost : Host Unit where
  __ := Host.silent
  middleware h _ :=
    if h = ⟨0⟩ then .ask (.update fun c => c.put "stopped" (.bool true)) fun _ => .done (.error .noFirst)
    else .done (.ok .none)

def tollEnv : Surroundings Unit := ⟨tollHost, { registry := ⟨[]⟩ }⟩

def tollWorld (middleware : List Middleware) : World Unit where
  shared := { host := (), clock := default, subscribers := { listeners := [("toll", [⟨2⟩])], middleware } }

def tolling : Script Unit Unit :=
  .ask (.effect (.emit "toll" [] [])) fun r => .done (r.map fun _ => .none)

def tollRun (middleware : List Middleware) : List (Moment Unit) × World Unit :=
  World.follow tollEnv (some (.perform tolling) :: List.replicate 10 none) [] (tollWorld middleware)

theorem tollRun_recorded (middleware : List Middleware) : Records tollEnv Act.Patient []
    (tollWorld middleware) (tollRun middleware).1 (tollRun middleware).2 := by
  refine Records.start.follow fun a ha => ?_
  obtain rfl : a = .perform tolling := by simpa [List.mem_replicate] using ha
  trivial

/-- The mark is seen when the second middleware returns. -/
theorem toll_heeded : ∃ b m t rest o, own 0 (tollRun [.hook ⟨0⟩, .hook ⟨1⟩]).1 = [b] ++ m :: (t ++ rest) ∧
    m.deed = .asks (.effect (.emit "toll" [] [])) ∧ o ≠ none ∧
    Event.Course tollEnv "toll" [] [] (Event.HeedsMark tollEnv "toll" [] []) t o := by
  obtain ⟨b, m, after, split, emits⟩ : ∃ b m after,
      own 0 (tollRun [.hook ⟨0⟩, .hook ⟨1⟩]).1 = [b] ++ m :: after ∧
      m.deed = .asks (.effect (.emit "toll" [] [])) := ⟨_, _, _, rfl, rfl⟩
  obtain ⟨⟨t, rest, o, rfl, unfinished, course⟩, -⟩ :=
    Records.marked_event_stops (τ := Unit) rfl (tollRun_recorded _) split emits rfl
  refine ⟨b, m, t, rest, o, split, emits, fun none => ?_, course⟩
  exact (unfinished none).2 _ rfl

/-- Without the second middleware the listener is called, though the context is marked. -/
theorem toll_passes : (∃ b m pre vs x n later,
      own 0 (tollRun [.hook ⟨0⟩]).1 = [b] ++ m :: (pre ++ n :: later) ∧
      m.deed = .asks (.effect (.emit "toll" [] [])) ∧
      Event.Prepared tollEnv "toll" [] [] pre [⟨2⟩] vs x ∧
      Event.isStopped (Event.leftBy (Event.context "toll" [] []) vs) = true ∧
      n.deed = .asks (.notify [⟨2⟩] [] [])) ∧
    (tollRun [.hook ⟨0⟩]).2.threads.length = 2 ∧
    (tollRun [.hook ⟨0⟩, .hook ⟨1⟩]).2.threads.length = 1 := by
  obtain ⟨b, m, a, s, g, e, s', g', n, later, split, emits, looks, sweeps, fetches, noted, sweeps', fetches',
      tells, subscribed⟩ :
      ∃ b m a s g e s' g' n later,
        own 0 (tollRun [.hook ⟨0⟩]).1 = [b] ++ m :: ([a, s, g, e, s', g'] ++ n :: later) ∧
        m.deed = .asks (.effect (.emit "toll" [] [])) ∧ a.deed = .asks (.listeners "toll") ∧
        s.deed = .asks (.sweep .before "toll" 0 (Event.context "toll" [] [])) ∧
        g.deed = .asks (.middlewareAt 0) ∧
        e.deed = .asks (.effect (.note (.middlewareFailed "" false .noFirst))) ∧
        s'.deed = .asks (.sweep .before "toll" 1
          ((Event.context "toll" [] []).put "stopped" (.bool true))) ∧
        g'.deed = .asks (.middlewareAt 1) ∧ n.deed = .asks (.notify [⟨2⟩] [] []) ∧
        [a, g, g'].map (·.before.shared.subscribers) =
          List.replicate 3 (tollWorld [.hook ⟨0⟩]).shared.subscribers :=
    ⟨_, _, _, _, _, _, _, _, _, _, rfl, rfl, rfl, rfl, rfl, rfl, rfl, rfl, rfl, rfl⟩
  simp only [List.map_cons, List.map_nil, List.replicate, List.cons.injEq, and_true] at subscribed
  obtain ⟨looked, found, none⟩ := subscribed
  let v : Event.Visit := ⟨.hook ⟨0⟩, Event.context "toll" [] [], .error .noFirst,
    (Event.context "toll" [] []).put "stopped" (.bool true)⟩
  have calls : Event.Visits.Calls tollEnv .before "toll" 0 s g [] v :=
    ⟨⟨sweeps, fetches⟩, by rw [found]; rfl, .done _⟩
  have ended : Event.Visits tollEnv .before "toll" 1 v.left [s', g'] [] (.ok ⟨v.left, false⟩) :=
    .ended ⟨sweeps', fetches'⟩ (by rw [none]; rfl)
  have visits := Event.Visits.raised calls rfl rfl noted ended
  exact ⟨⟨b, m, _, [v], _, n, later, split, emits, ⟨a, _, rfl, looks, by rw [looked]; rfl, visits⟩, rfl,
    tells⟩, rfl, rfl⟩

end World
end ChatCommands
