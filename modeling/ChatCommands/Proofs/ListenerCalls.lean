import Mathlib
import ChatCommands.Proofs.ListenerThreads

set_option autoImplicit false

/-!
# Calls of listeners

When listeners are notified, a thread begins for each of them and runs it with
the arguments of the event. The threads get their first turns in the order of
their numbers, which is that of the listeners, and whoever has notified them
hears of their results when all have ended.
-/
namespace ChatCommands
variable {σ : Type}

namespace World
variable {env : Surroundings σ} {w w' : World σ} {m : Moment σ}

theorem not_asks_of_mem_ensuing {i : Nat} {r r' : EngineRequest σ} (h : m ∈ w.ensuing env i r) :
    m.deed ≠ .asks r' := by
  rcases mem_ensuing h with ⟨-, hears⟩ | ⟨-, _, _, _, begins⟩
  · simp [hears]
  · simp [begins]

/-- A request is recorded with what comes with it. -/
theorem taken_of_asks {r : EngineRequest σ} (h : m ∈ w.taken env) (asks : m.deed = .asks r) :
    m.before = w ∧ m.thread < w.threads.length ∧ w.taken env = m :: w.ensuing env m.thread r := by
  have takes := w.takes env
  generalize w.taken env = new at h takes
  cases takes with
  | nothing => cases h
  | asks turns state =>
    rcases List.mem_cons.1 h with rfl | h
    · cases asks
      exact ⟨rfl, lt_of_state? state, rfl⟩
    · exact absurd asks (not_asks_of_mem_ensuing h)
  | ends | hears =>
    obtain rfl := List.mem_singleton.1 h
    cases asks

theorem not_asks_of_mem_acted {r : EngineRequest σ} {a : Act σ} (h : m ∈ w.acted env a) :
    m.deed ≠ .asks r := by
  rcases mem_acted h with ⟨p, begins⟩ | ⟨x, resumes⟩
  · simp [begins]
  · simp [resumes]

end World

/-- The listeners that this has notified are called: for each a thread has begun to run it, and no other
thread has begun with these. -/
structure Summons (env : Surroundings σ) (log : List (Moment σ)) (w : World σ) (m : Moment σ)
    (listeners : List Hook) (arguments : List Value) (options : Assoc Value) : Prop where
  begun : ∀ (j : Nat) (h : Hook), listeners[j]? = some h →
    ∃ t, own (m.before.threads.length + j) log = ⟨m.before.threads.length + j, m.before,
      .begins ((Engine.runScript (env.host.listener h arguments options)).bind fun r =>
        .done (.value r))⟩ :: t
  only : ∀ b ∈ log, b.before.threads.length < m.before.threads.length + listeners.length →
    b.thread < m.before.threads.length + listeners.length
  there : m.before.threads.length + listeners.length ≤ w.threads.length

/-- All listeners that were ever notified are called. -/
def Summoned (env : Surroundings σ) (log : List (Moment σ)) (w : World σ) : Prop :=
  ∀ m ∈ log, ∀ listeners arguments options, m.deed = .asks (.notify listeners arguments options) →
    Summons env log w m listeners arguments options

namespace Summoned
variable {env : Surroundings σ} {log new : List (Moment σ)} {w w' : World σ}

theorem nil (env : Surroundings σ) (w : World σ) : Summoned env [] w := fun _ hm => by cases hm

theorem next (summoned : Summoned env log w) (moves : w.Moves env w' new)
    (others : ∀ m ∈ new, ∀ listeners arguments options,
      m.deed = .asks (.notify listeners arguments options) →
        Summons env (log ++ new) w' m listeners arguments options) : Summoned env (log ++ new) w' := by
  intro m hm listeners arguments options asks
  rcases List.mem_append.1 hm with old | new
  case inr => exact others m new _ _ _ asks
  obtain ⟨begun, only, there⟩ := summoned m old _ _ _ asks
  refine ⟨fun j h hj => ?_, fun b hb few => ?_, there.trans moves.grows⟩
  · obtain ⟨t, begun⟩ := begun j h hj
    exact ⟨_, by rw [own_append, begun, List.cons_append]⟩
  · rcases List.mem_append.1 hb with old | new
    · exact only b old few
    · rw [moves.before new] at few
      omega

theorem tick (summoned : Summoned env log w) (traced : Traced env log w) :
    Summoned env (log ++ w.taken env) (w.tick env) := by
  have moves := World.moves_tick env w
  refine summoned.next moves fun m hm listeners arguments options asks => ?_
  obtain ⟨rfl, early, taken⟩ := World.taken_of_asks hm asks
  have later : ∀ k, m.before.threads.length ≤ k → own k (log ++ m.before.taken env) =
      own k (m.before.ensuing env m.thread (.notify listeners arguments options)) := by
    intro k hk
    rw [own_append, traced.unborn k (World.state?_eq_none_iff.2 hk), taken, own_cons, if_neg (by omega),
      List.nil_append]
  have begun : ∀ (j : Nat) (h : Hook), listeners[j]? = some h → own (m.before.threads.length + j)
      (log ++ m.before.taken env) = [⟨m.before.threads.length + j, m.before,
        .begins ((Engine.runScript (env.host.listener h arguments options)).bind fun r =>
          .done (.value r))⟩] := by
    intro j h hj
    have some : listenerTasks env listeners arguments options ≠ [] := by
      intro none
      rw [listenerTasks, List.map_eq_nil_iff] at none
      simp [none] at hj
    rw [later _ (by omega), World.ensuing_notify some, World.own_beginAll, if_pos (by omega)]
    simp [World.listening, listenerTasks, hj]
  refine ⟨fun j h hj => ⟨[], begun j h hj⟩, fun b hb few => ?_, ?_⟩
  · by_contra beyond
    have mine := mem_own.2 ⟨hb, rfl⟩
    rw [later _ (by omega)] at mine
    rcases World.thread_le_of_mem_ensuing (mem_own.1 mine).1 with same | within <;> omega
  · by_contra fewer
    obtain ⟨j, hj⟩ := Nat.exists_eq_add_of_le moves.grows
    have first := begun j _ (List.getElem?_eq_getElem (by omega))
    rw [own_append, traced.unborn _ (World.state?_eq_none_iff.2 (by omega)),
      moves.absent _ (World.state?_eq_none_iff.2 (by omega))] at first
    cases first

end Summoned

namespace World
variable {env : Surroundings σ} {permitted : Act σ → Prop} {log₀ log : List (Moment σ)}
  {w₀ w : World σ}

theorem Records.summoned (run : Records env permitted log₀ w₀ log w) (start : Traced env log₀ w₀)
    (before : Summoned env log₀ w₀) (patient : ∀ a, permitted a → a.Patient) : Summoned env log w := by
  induction run with
  | start => exact before
  | tick run ih => exact ih.tick (run.traced start patient)
  | act run a ha ih =>
    exact ih.next (moves_act env _ (patient a ha)) fun m hm _ _ _ asks =>
      absurd asks (not_asks_of_mem_acted hm)

theorem Records.joined (run : Records env permitted log₀ w₀ log w) (start : w₀.Joined)
    (patient : ∀ a, permitted a → a.Patient) : w.Joined := by
  induction run with
  | start => exact start
  | tick run ih => exact ih.tick env
  | act run a ha ih => exact ih.act env (patient a ha)

end World

/-- The thread has begun the program, has played it to this result and has ended. -/
def Completes (env : Surroundings σ) (k : Nat) (log : List (Moment σ))
    (p : Engine σ (Except Fault Value)) (x : Except Fault Value) : Prop :=
  ∃ m u e, own k log = m :: (u ++ [e]) ∧ m.deed = .begins (p.bind fun r => .done (.value r)) ∧
    Plays env p u (some x) ∧ e.deed = .ends (.value x)

theorem Traced.completes {env : Surroundings σ} {log : List (Moment σ)} {w : World σ}
    (traced : Traced env log w) {k : Nat} {r : Finish} (finished : w.state? k = some (.finished r))
    {p : Engine σ (Except Fault Value)} {m : Moment σ} {t : List (Moment σ)}
    (begun : own k log = m :: t) (begins : m.deed = .begins (p.bind fun r => .done (.value r))) :
    Completes env k log p (w.resultOf k) := by
  obtain ⟨u, e, x, rfl, ends, rfl, plays⟩ := traced.ended finished begun begins
  have result : w.resultOf k = x := by simp [World.resultOf, finished]
  exact result ▸ ⟨m, u, e, begun, begins, plays, ends⟩

/-- The thread that did this was told what the threads of its listeners had ended with. -/
def Heard (env : Surroundings σ) (before : List (Moment σ)) (m : Moment σ)
    (xs : Except Fault (List (Except Fault Value))) : Prop :=
  ∃ c t listeners arguments options results, own m.thread before = t ++ [c] ∧
    c.deed = .asks (.notify listeners arguments options) ∧ xs = .ok results ∧
    results.length = listeners.length ∧ ∀ (j : Nat) (h : Hook) (x : Except Fault Value),
      listeners[j]? = some h → results[j]? = some x → Completes env (c.before.threads.length + j) before
        (Engine.runScript (env.host.listener h arguments options)) x

namespace World
variable {env : Surroundings σ} {permitted : Act σ → Prop} {log₀ log : List (Moment σ)}
  {w₀ w : World σ}

theorem hears_of_taken {m : Moment σ} {before after : List (Moment σ)}
    {xs : Except Fault (List (Except Fault Value))} (h : w.taken env = before ++ m :: after)
    (hears : m.deed = .hears xs) :
    (before = [] ∧ ∃ children cancelled next,
        w.state? m.thread = some (.joining children 0 cancelled next) ∧
        xs = if cancelled then .error .cancelled else .ok (children.map w.resultOf)) ∨
      ∃ arguments options, before = [⟨m.thread, w, .asks (.notify [] arguments options)⟩] ∧ xs = .ok [] := by
  have takes := w.takes env
  generalize w.taken env = new at h takes
  cases takes with
  | nothing => simp at h
  | @asks i rest r next turns state =>
    -- a turn that begins with a request tells results only where there are no listeners
    rcases before with _ | ⟨b, before⟩
    · obtain ⟨rfl, -⟩ := List.cons.inj h
      cases hears
    · obtain ⟨rfl, ensues⟩ := List.cons.inj h
      cases r with
      | notify listeners arguments options =>
        simp only [ensuing] at ensues
        split at ensues
        case h_1 none =>
          obtain ⟨rfl, rfl⟩ := eq_of_singleton_eq ensues
          cases hears
          obtain rfl : listeners = [] := by simpa [listening, listenerTasks] using none
          exact .inr ⟨arguments, options, rfl, rfl⟩
        case h_2 =>
          have mem : m ∈ w.beginAll w.threads.length (listening env listeners arguments options) :=
            ensues ▸ List.mem_append_right before List.mem_cons_self
          obtain ⟨-, -, p, -, begins⟩ := mem_beginAll mem
          cases begins.symm.trans hears
      | _ => simp [ensuing] at ensues
  | ends turns state =>
    obtain ⟨rfl, rfl⟩ := eq_of_singleton_eq h
    cases hears
  | hears turns state =>
    obtain ⟨rfl, rfl⟩ := eq_of_singleton_eq h
    cases hears
    exact .inl ⟨rfl, _, _, _, state, rfl⟩

/-- A thread whose listeners have all reported hears what they have ended with. -/
theorem Joined.heard (joined : w.Joined) (traced : Traced env log w) (summoned : Summoned env log w)
    {m : Moment σ} {children : List Nat} {cancelled : Bool}
    {next : Except Fault (List (Except Fault Value)) → Task σ}
    (state : w.state? m.thread = some (.joining children 0 cancelled next)) :
    Heard env log m (if cancelled then .error .cancelled else .ok (children.map w.resultOf)) := by
  obtain ⟨b, p, t, mine, -, t', c, listeners, arguments, options, rfl, asks, rfl, -⟩ :=
    traced.begun _ _ state
  obtain ⟨rfl, pending, few, all⟩ := joined.counted _ _ _ _ _ state
  obtain rfl := List.eq_nil_of_length_eq_zero (Nat.le_zero.1 few)
  have logged : c ∈ log := by
    have last : c ∈ own m.thread log := by simp [mine]
    exact (mem_own.1 last).1
  refine ⟨c, b :: t', listeners, arguments, options, _, by simpa using mine, asks, rfl, by simp, ?_⟩
  intro j h x hj hx
  have inside : j < listeners.length := (List.getElem?_eq_some_iff.1 hj).1
  obtain rfl : w.resultOf (c.before.threads.length + j) = x := by
    simpa [List.getElem?_range', inside] using hx
  have child : c.before.threads.length + j ∈
      List.range' c.before.threads.length listeners.length :=
    List.mem_range'_1.2 ⟨by omega, by omega⟩
  obtain ⟨u, begun⟩ := (summoned c logged _ _ _ asks).begun j h hj
  obtain ⟨r, finished⟩ : ∃ r, w.state? (c.before.threads.length + j) = some (.finished r) := by
    by_contra none
    exact List.not_mem_nil (all _ child (.inl fun r hr => none ⟨r, hr⟩))
  exact traced.completes finished begun rfl

/-- Whenever a thread hears results, they are those of the listeners that it has notified last. -/
theorem Records.heard (run : Records env permitted log₀ w₀ log w) (start : Traced env log₀ w₀)
    (before : Summoned env log₀ w₀) (joined : w₀.Joined) (patient : ∀ a, permitted a → a.Patient)
    (none : ∀ m ∈ log₀, ∀ xs, m.deed ≠ .hears xs) {earlier later : List (Moment σ)} {m : Moment σ}
    {xs : Except Fault (List (Except Fault Value))} (split : log = earlier ++ m :: later)
    (hears : m.deed = .hears xs) : Heard env earlier m xs := by
  induction run generalizing later with
  | start => exact absurd hears (none m (split ▸ by simp) xs)
  | @tick log w run ih =>
    rcases split_append split with ⟨kept, old, -⟩ | ⟨more, rfl, taken⟩
    · exact ih old
    · have traced := run.traced start patient
      rcases hears_of_taken taken hears with ⟨rfl, _, _, _, state, rfl⟩ | ⟨arguments, options, rfl, rfl⟩
      · rw [List.append_nil]
        exact (run.joined joined patient).heard traced (run.summoned start before patient) state
      · refine ⟨⟨m.thread, w, .asks (.notify [] arguments options)⟩, own m.thread log, [], arguments,
          options, [], ?_, rfl, rfl, rfl, by simp⟩
        simp [own_cons]
  | @act log w run a ha ih =>
    rcases split_append split with ⟨kept, old, -⟩ | ⟨more, rfl, acted⟩
    · exact ih old
    · have mem : m ∈ w.acted env a := acted ▸ List.mem_append_right more List.mem_cons_self
      rcases mem_acted mem with ⟨p, begins⟩ | ⟨x, resumes⟩
      · cases begins.symm.trans hears
      · cases resumes.symm.trans hears

end World
end ChatCommands
