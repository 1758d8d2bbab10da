import Mathlib
import ChatCommands.Proofs.WorldRun

set_option autoImplicit false

/-!
# Disciplines of the world's threads

If the programs that requests stand for follow a discipline, and if the world
gives the answers that the discipline counts on, then all threads follow it in
every run. Each thread has a state of the discipline of its own, which changes
only when one of its requests is answered from the shared state.
-/
namespace ChatCommands
variable {σ S : Type}

/-- A discipline under which threads wait, are started and are told of each other. A listener's thread
begins in the state `fresh`, and `R` holds of what any thread hands back. -/
structure Discipline.Steady (env : Surroundings σ) (D : Discipline (engineInterface σ) S) (fresh : S)
    (Q : S → Finish → Prop) (R : Except Fault Value → Prop) : Prop where
  expandStill : ∀ {a : S} {r : EngineRequest σ} {p : Engine σ r.Answer} (x : r.Answer),
    Expands env r p → D.next a r x = a
  waitStill : ∀ (a : S) (x : Except Fault Value), D.next a (.effect .wait) x = a
  notifyStill : ∀ (a : S) (listeners : List Hook) (arguments : List Value) (options : Assoc Value)
    (x : Except Fault (List (Except Fault Value))),
    D.next a (.notify listeners arguments options) x = a
  listened : ∀ {a : S} {listeners : List Hook} {arguments : List Value} {options : Assoc Value},
    D.allows a (.notify listeners arguments options) →
    ∀ p ∈ listenerTasks env listeners arguments options,
      p.Follows D (fun a' x => Q a' (.value x)) fresh
  heard : ∀ {a : S} {listeners : List Hook} {arguments : List Value} {options : Assoc Value}
    {xs : List (Except Fault Value)}, D.allows a (.notify listeners arguments options) →
    (∀ x ∈ xs, R x) → D.expects a (.notify listeners arguments options) (.ok xs)
  returned : ∀ {a : S} {x : Except Fault Value}, Q a (.value x) → R x
  silent : R (.ok .none)

/-- The program that a request stands for keeps to the discipline, as the request has to. -/
def Discipline.Stands (D : Discipline (engineInterface σ) S) (a : S) (r : EngineRequest σ)
    (p : Engine σ r.Answer) : Prop :=
  p.Follows D (fun a' x => D.expects a r x ∧ a' = a) a

/-- A discipline that the world keeps, whatever it is asked. -/
structure Discipline.Kept (env : Surroundings σ) (D : Discipline (engineInterface σ) S) (fresh : S)
    (Q : S → Finish → Prop) (R : Except Fault Value → Prop) : Prop
    extends Discipline.Steady env D fresh Q R where
  answered : ∀ {a : S} {s s' : Shared σ} {r : EngineRequest σ} {x : r.Answer},
    Answers env s r x s' → D.allows a r → D.expects a r x
  expanded : ∀ {a : S} {r : EngineRequest σ} {p : Engine σ r.Answer},
    Expands env r p → D.allows a r → D.Stands a r p

/-- What is left of a thread follows the discipline from a state on. -/
def ThreadState.Follows (D : Discipline (engineInterface σ) S) (Q : S → Finish → Prop) (a : S) :
    ThreadState σ → Prop
  | .running p => p.Follows D Q a
  | .waiting next => Program.Follows D Q a (.ask (.effect .wait) next)
  | .joining _ _ cancelled next => ∃ listeners arguments options,
      Program.Follows D Q a (.ask (.notify listeners arguments options) next) ∧
      (cancelled = true → D.expects a (.notify listeners arguments options) (.error .cancelled))
  | .finished r => Q a r

/-- Every thread follows the discipline from its own state on; threads to come begin afresh. -/
structure World.Follows (D : Discipline (engineInterface σ) S) (fresh : S) (Q : S → Finish → Prop)
    (w : World σ) (G : Nat → S) : Prop where
  threads : ∀ i st, w.state? i = some st → st.Follows D Q (G i)
  unborn : ∀ i, w.threads.length ≤ i → G i = fresh

namespace World
variable {env : Surroundings σ} {D : Discipline (engineInterface σ) S} {fresh : S}
  {Q : S → Finish → Prop} {R : Except Fault Value → Prop} {w : World σ} {G : Nat → S}

theorem Follows.setState (hw : w.Follows D fresh Q G) {i : Nat} {st : ThreadState σ} {a : S}
    (hi : i < w.threads.length) (hst : st.Follows D Q a) :
    (w.setState i st).Follows D fresh Q (Function.update G i a) where
  threads j st' h := by
    rcases state?_setState_cases h with ⟨rfl, rfl⟩ | ⟨hj, h⟩
    · simpa using hst
    · simpa [hj] using hw.threads j st' h
  unborn j hj := by
    have hj' : w.threads.length ≤ j := by simpa using hj
    rw [Function.update_of_ne (by omega)]
    exact hw.unborn j hj'

theorem Follows.setState_same (hw : w.Follows D fresh Q G) {i : Nat} {st : ThreadState σ}
    (hi : i < w.threads.length) (hst : st.Follows D Q (G i)) :
    (w.setState i st).Follows D fresh Q G := by
  simpa using hw.setState hi hst

theorem Follows.of_states {G' : Nat → S} (hw : w.Follows D fresh Q G) (same : ∀ i, G' i = G i) :
    w.Follows D fresh Q G' := by
  rwa [funext same]

theorem Follows.congr {w' : World σ} (hw : w.Follows D fresh Q G) (h : w'.threads = w.threads) :
    w'.Follows D fresh Q G where
  threads i st hs := hw.threads i st (by simpa [state?_eq, h] using hs)
  unborn i hi := hw.unborn i (by simpa [h] using hi)

theorem Follows.result (steady : D.Steady env fresh Q R) (hw : w.Follows D fresh Q G) (i : Nat) :
    R (w.resultOf i) := by
  unfold resultOf
  split
  case h_1 x hx => exact steady.returned (hw.threads i _ hx)
  case h_2 => exact steady.silent

theorem state?_append {w : World σ} {ts : List (Thread σ)} {turns : List Turn} {i : Nat}
    {st : ThreadState σ}
    (h : { w with threads := w.threads ++ ts, turns := turns : World σ }.state? i = some st) :
    w.state? i = some st ∨ w.threads.length ≤ i ∧ ∃ t ∈ ts, t.state = st := by
  rw [state?_eq, Option.map_eq_some_iff] at h
  obtain ⟨t, ht, rfl⟩ := h
  rw [List.getElem?_append] at ht
  split at ht
  case isTrue => exact .inl (state?_of_thread ht)
  case isFalse hi => exact .inr ⟨by omega, t, List.mem_of_getElem? ht, rfl⟩

theorem Follows.append (hw : w.Follows D fresh Q G) {ts : List (Thread σ)} {turns : List Turn}
    (h : ∀ t ∈ ts, t.state.Follows D Q fresh) :
    { w with threads := w.threads ++ ts, turns := turns : World σ }.Follows D fresh Q G where
  threads i st hs := by
    rcases state?_append hs with hs | ⟨hi, t, ht, rfl⟩
    · exact hw.threads i st hs
    · rw [hw.unborn i hi]
      exact h t ht
  unborn i hi := hw.unborn i (by
    simp only [List.length_append] at hi
    omega)

theorem Follows.spawn (steady : D.Steady env fresh Q R) (hw : w.Follows D fresh Q G) {i root : Nat}
    {listeners : List Hook} {arguments : List Value} {options : Assoc Value}
    {next : Except Fault (List (Except Fault Value)) → Task σ} (hi : i < w.threads.length)
    (h : Program.Follows D Q (G i) (.ask (.notify listeners arguments options) next)) :
    (w.spawn i root (listenerTasks env listeners arguments options) next).Follows D fresh Q G := by
  have joining : (ThreadState.joining (List.range' w.threads.length
      (listenerTasks env listeners arguments options).length)
      (List.range' w.threads.length (listenerTasks env listeners arguments options).length).length
      false next).Follows D Q (G i) := ⟨listeners, arguments, options, h, by simp⟩
  apply Follows.append (hw.setState_same hi joining)
  intro t ht
  obtain ⟨p, hp, rfl⟩ := List.mem_map.1 ht
  exact (steady.listened h.1 p hp).bind fun a x hx => hx

/-- What a turn means for the states of the discipline: at most one thread's changes, when its
request is answered from the shared state. -/
structure TickFollowed (env : Surroundings σ) (D : Discipline (engineInterface σ) S) (w w' : World σ)
    (G G' : Nat → S) : Prop where
  change : (w.nextEntry env = none ∧ w'.shared = w.shared ∧ G' = G) ∨
    ∃ (i : Nat) (r : EngineRequest σ) (x : r.Answer), w.nextEntry env = entryOf env w.shared i r ∧
      Answers env w.shared r x w'.shared ∧ D.allows (G i) r ∧ i < w.threads.length ∧
      G' = Function.update G i (D.next (G i) r x)

theorem nextEntry_step {i : Nat} {rest : List Turn} {r : EngineRequest σ} {next : r.Answer → Task σ}
    (h : w.turns = .step i :: rest) (state : w.state? i = some (.running (.ask r next))) :
    w.nextEntry env = entryOf env w.shared i r := by
  simp [nextEntry, h, state]

/-- The thread whose turn it is makes this request next. -/
def Turns (w : World σ) (i : Nat) (r : EngineRequest σ) : Prop :=
  ∃ rest next, w.turns = .step i :: rest ∧ w.state? i = some (.running (.ask r next))

/-- A turn keeps all threads to the discipline if it keeps to it what the thread whose turn it is asks for. -/
theorem Follows.tick_of (steady : D.Steady env fresh Q R) (hw : w.Follows D fresh Q G)
    (answered : ∀ {i : Nat} {r : EngineRequest σ} {x : r.Answer} {s' : Shared σ}, w.Turns i r →
      Answers env w.shared r x s' → D.allows (G i) r → D.expects (G i) r x)
    (expanded : ∀ {i : Nat} {r : EngineRequest σ} {p : Engine σ r.Answer}, w.Turns i r →
      Expands env r p → D.allows (G i) r → D.Stands (G i) r p) :
    ∃ G', (w.tick env).Follows D fresh Q G' ∧ TickFollowed env D w (w.tick env) G G' := by
  have ticked := tick_ticked env w
  generalize w.tick env = w' at ticked
  cases ticked with
  | rest h => exact ⟨G, hw, ⟨.inl ⟨by simp [nextEntry, h], rfl, rfl⟩⟩⟩
  | @dropStep i rest h idle =>
    refine ⟨G, hw.congr rfl, ⟨.inl ⟨?_, rfl, rfl⟩⟩⟩
    simp only [nextEntry, h]
    cases hs : w.state? i with
    | none => rfl
    | some st =>
      rcases idle st hs with ⟨_, rfl⟩ | ⟨_, rfl⟩ | ⟨_, _, _, _, rfl⟩ <;> rfl
  | dropReport h idle => exact ⟨G, hw.congr rfl, ⟨.inl ⟨by simp [nextEntry, h], rfl, rfl⟩⟩⟩
  | @answer i rest r next x s h state answers =>
    have hi := lt_of_state? state
    obtain ⟨allowed, going⟩ := hw.threads i _ state
    have gone : (ThreadState.running (next x)).Follows D Q (D.next (G i) r x) :=
      going x (answered ⟨_, _, h, state⟩ answers allowed)
    exact ⟨_, (hw.setState hi gone).congr rfl,
      ⟨.inr ⟨i, r, x, nextEntry_step h state, answers, allowed, hi, rfl⟩⟩⟩
  | @expand i rest r next p h state expands =>
    obtain ⟨allowed, going⟩ := hw.threads i _ state
    refine ⟨G, hw.setState_same (lt_of_state? state) ?_, ⟨.inl ⟨?_, rfl, rfl⟩⟩⟩
    · refine Program.Follows.bind (expanded ⟨_, _, h, state⟩ expands allowed) ?_
      rintro _ x ⟨hx, rfl⟩
      simpa only [steady.expandStill x expands] using going x hx
    · rw [nextEntry_step h state]
      cases expands <;> rfl
  | @wait i rest next h state =>
    have before := hw.threads i _ state
    change (ThreadState.waiting next).Follows D Q (G i) at before
    exact ⟨G, (hw.setState_same (lt_of_state? state) before).congr rfl,
      ⟨.inl ⟨nextEntry_step h state, rfl, rfl⟩⟩⟩
  | @notifyNone i rest listeners arguments options next h state none =>
    obtain ⟨allowed, going⟩ := hw.threads i _ state
    refine ⟨G, hw.setState_same (lt_of_state? state) ?_, ⟨.inl ⟨nextEntry_step h state, rfl, rfl⟩⟩⟩
    have heard := going (.ok []) (steady.heard allowed (by simp))
    rwa [steady.notifyStill] at heard
  | @spawn i rest t listeners arguments options next h thread state some =>
    have hs : w.state? i = Option.some (.running (.ask (.notify listeners arguments options) next)) :=
      state ▸ state?_of_thread thread
    have turned : { w with turns := rest }.Follows D fresh Q G := hw.congr rfl
    exact ⟨G, turned.spawn steady (lt_of_state? hs) (hw.threads i _ hs),
      ⟨.inl ⟨nextEntry_step h hs, rfl, rfl⟩⟩⟩
  | @stop i rest t r h thread state =>
    have hs : w.state? i = some (.running (.done r)) := state ▸ state?_of_thread thread
    have before := hw.threads i _ hs
    change (ThreadState.finished r).Follows D Q (G i) at before
    exact ⟨G, (hw.setState_same (lt_of_state? hs) before).congr rfl,
      ⟨.inl ⟨by simp [nextEntry, h, hs], rfl, rfl⟩⟩⟩
  | @join i rest children cancelled next h state =>
    refine ⟨G, hw.setState_same (lt_of_state? state) ?_,
      ⟨.inl ⟨by simp [nextEntry, h, state], rfl, rfl⟩⟩⟩
    obtain ⟨listeners, arguments, options, ⟨allowed, going⟩, broken⟩ := hw.threads i _ state
    have expected : D.expects (G i) (.notify listeners arguments options)
        (if cancelled then .error .cancelled else .ok (children.map w.resultOf)) := by
      cases cancelled with
      | true => exact broken rfl
      | false =>
        apply steady.heard allowed
        intro x hx
        obtain ⟨j, -, rfl⟩ := List.mem_map.1 hx
        exact hw.result steady j
    have joined := going _ expected
    rwa [steady.notifyStill] at joined
  | @hear i parent rest t children missing cancelled next h thread isChild state =>
    have before := hw.threads parent _ state
    change (ThreadState.joining children missing cancelled next).Follows D Q (G parent) at before
    exact ⟨G, (hw.setState_same (lt_of_state? state) before).congr rfl,
      ⟨.inl ⟨by simp [nextEntry, h], rfl, rfl⟩⟩⟩

theorem Follows.tick (kept : D.Kept env fresh Q R) (hw : w.Follows D fresh Q G) :
    ∃ G', (w.tick env).Follows D fresh Q G' ∧ TickFollowed env D w (w.tick env) G G' :=
  hw.tick_of kept.toSteady (fun _ => kept.answered) fun _ => kept.expanded

theorem Follows.start (hw : w.Follows D fresh Q G) {p : Task σ} {a : S} (h : p.Follows D Q a) :
    (w.start p).1.Follows D fresh Q (Function.update G w.threads.length a) where
  threads i st hs := by
    rcases state?_append hs with old | ⟨hi, t, ht, rfl⟩
    · rw [Function.update_of_ne (lt_of_state? old).ne]
      exact hw.threads i st old
    · have bound : i < w.threads.length + 1 := by simpa [World.start] using lt_of_state? hs
      obtain rfl : i = w.threads.length := by omega
      obtain rfl := List.mem_singleton.1 ht
      rw [Function.update_self]
      exact h
  unborn i hi := by
    have : w.threads.length < i := by simpa [World.start, Nat.succ_le_iff] using hi
    rw [Function.update_of_ne (by omega)]
    exact hw.unborn i (by omega)

/-- A thread that waits goes on with an answer that it counts on. -/
theorem Follows.answer (steady : D.Steady env fresh Q R) (hw : w.Follows D fresh Q G) {i : Nat}
    {x : Except Fault Value} (h : ∀ a, D.allows a (.effect .wait) → D.expects a (.effect .wait) x) :
    (w.act env (.answer i x)).Follows D fresh Q G := by
  unfold act
  dsimp only
  split
  case h_1 next hs =>
    obtain ⟨allowed, going⟩ := hw.threads i _ hs
    have gone := going x (h _ allowed)
    rw [steady.waitStill] at gone
    change (ThreadState.running (next x)).Follows D Q (G i) at gone
    exact (hw.setState_same (lt_of_state? hs) gone).congr rfl
  case h_2 => exact hw

theorem follows_cancelled (steady : D.Steady env fresh Q R) {st : ThreadState σ} {a : S}
    (hst : st.Follows D Q a)
    (waits : ∀ a, D.allows a (.effect .wait) → D.expects a (.effect .wait) (.error .cancelled))
    (joins : ∀ a listeners arguments options, D.allows a (.notify listeners arguments options) →
      D.expects a (.notify listeners arguments options) (.error .cancelled)) :
    st.cancel.1.Follows D Q a := by
  cases st with
  | running p => exact hst
  | waiting next =>
    obtain ⟨allowed, going⟩ := hst
    have gone := going _ (waits _ allowed)
    rwa [steady.waitStill] at gone
  | joining children missing cancelled next =>
    obtain ⟨listeners, arguments, options, going, -⟩ := hst
    exact ⟨listeners, arguments, options, going, fun _ => joins _ _ _ _ going.1⟩
  | finished r => exact hst

/-- Threads may be cancelled if every wait may be broken off. -/
theorem Follows.cancel (steady : D.Steady env fresh Q R) (hw : w.Follows D fresh Q G) (root : Nat)
    (waits : ∀ a, D.allows a (.effect .wait) → D.expects a (.effect .wait) (.error .cancelled))
    (joins : ∀ a listeners arguments options, D.allows a (.notify listeners arguments options) →
      D.expects a (.notify listeners arguments options) (.error .cancelled)) :
    (w.cancel root).Follows D fresh Q G where
  threads i st hs := by
    rw [state?_eq, Option.map_eq_some_iff] at hs
    obtain ⟨t, ht, rfl⟩ := hs
    simp only [World.cancel, List.getElem?_map, Option.map_eq_some_iff] at ht
    obtain ⟨t', ht', rfl⟩ := ht
    have before := hw.threads i _ (state?_of_thread ht')
    split
    case isTrue => exact follows_cancelled steady before waits joins
    case isFalse => exact before
  unborn i hi := hw.unborn i (by simpa [World.cancel] using hi)

theorem Follows.arrange (hw : w.Follows D fresh Q G) (turns : List Turn) :
    (w.act env (.arrange turns)).Follows D fresh Q G := by
  unfold act
  dsimp only
  split
  · exact hw.congr rfl
  · exact hw

theorem Follows.adjust (hw : w.Follows D fresh Q G) (change : Shared σ → Shared σ) :
    (w.act env (.adjust change)).Follows D fresh Q G := hw.congr rfl

end World
end ChatCommands
