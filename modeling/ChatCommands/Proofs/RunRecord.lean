import Mathlib
import ChatCommands.Proofs.ThreadPlay

set_option autoImplicit false

/-!
# The record of a run

The record of a run lists what all threads have done, the earliest first. A turn
of the world moves one thread and lets others begin; one inversion says which
deeds belong to which move. From it follows that what a thread has done, taken
out of the record, plays the task that it began.
-/
namespace ChatCommands
variable {σ : Type}

/-- What a thread has done. -/
def own (k : Nat) (log : List (Moment σ)) : List (Moment σ) := log.filter (·.thread = k)

@[simp] theorem own_nil (k : Nat) : own k ([] : List (Moment σ)) = [] := rfl

@[simp] theorem own_append (k : Nat) (t u : List (Moment σ)) : own k (t ++ u) = own k t ++ own k u :=
  List.filter_append ..

theorem own_cons (k : Nat) (m : Moment σ) (t : List (Moment σ)) :
    own k (m :: t) = if m.thread = k then m :: own k t else own k t := by
  simp [own, List.filter_cons]

theorem own_eq_self {k : Nat} {t : List (Moment σ)} (h : ∀ m ∈ t, m.thread = k) : own k t = t :=
  List.filter_eq_self.2 fun m hm => by simpa using h m hm

theorem own_eq_nil {k : Nat} {t : List (Moment σ)} (h : ∀ m ∈ t, m.thread ≠ k) : own k t = [] :=
  List.filter_eq_nil_iff.2 fun m hm => by simpa using h m hm

theorem exists_split_of_own {k : Nat} {log before after : List (Moment σ)} {m : Moment σ}
    (h : own k log = before ++ m :: after) :
    ∃ earlier later, log = earlier ++ m :: later ∧ own k earlier = before := by
  obtain ⟨earlier, rest, rfl, rfl, hm⟩ := List.filter_eq_append_iff.1 h
  obtain ⟨others, later, rfl, none, -, -⟩ := List.filter_eq_cons_iff.1 hm
  refine ⟨earlier ++ others, later, by simp, ?_⟩
  have nothing : own k others = [] := own_eq_nil fun d hd => by simpa using none d hd
  rw [own_append, nothing, List.append_nil]
  rfl

theorem mem_own {k : Nat} {m : Moment σ} {t : List (Moment σ)} :
    m ∈ own k t ↔ m ∈ t ∧ m.thread = k := by
  simp [own]

theorem thread_of_own_singleton {k : Nat} {m : Moment σ} (some : own k [m] ≠ []) : m.thread = k := by
  by_contra other
  exact some (own_eq_nil (by simpa using other))

theorem split_append {α : Type} {l new before after : List α} {a : α}
    (h : l ++ new = before ++ a :: after) : (∃ kept, l = before ++ a :: kept ∧ after = kept ++ new) ∨
      ∃ more, before = l ++ more ∧ new = more ++ a :: after := by
  rcases List.append_eq_append_iff.1 h with ⟨more, rfl, rfl⟩ | ⟨kept, rfl, rest⟩
  · exact .inr ⟨more, rfl, rfl⟩
  · rcases kept with _ | ⟨b, kept⟩
    · exact .inr ⟨[], by simp, by simpa using rest.symm⟩
    · obtain ⟨rfl, rfl⟩ := List.cons.inj rest
      exact .inl ⟨kept, rfl, rfl⟩

theorem eq_of_singleton_eq {α : Type} {a b : α} {before after : List α}
    (h : [a] = before ++ b :: after) : before = [] ∧ b = a := by
  cases before <;> simp_all

namespace World

/-- Threads begin these tasks, from a number on. -/
def beginAll (w : World σ) : Nat → List (Task σ) → List (Moment σ)
  | _, [] => []
  | k, p :: ps => ⟨k, w, .begins p⟩ :: beginAll w (k + 1) ps

/-- The tasks that the listeners' threads begin. -/
def listening (env : Surroundings σ) (listeners : List Hook) (arguments : List Value)
    (options : Assoc Value) : List (Task σ) :=
  (listenerTasks env listeners arguments options).map fun p => p.bind fun r => .done (.value r)

/-- What else comes with a request: threads begin for its listeners, or there are none to wait for. -/
def ensuing (env : Surroundings σ) (w : World σ) (i : Nat) : EngineRequest σ → List (Moment σ)
  | .notify listeners arguments options =>
    match listening env listeners arguments options with
    | [] => [⟨i, w, .hears (.ok [])⟩]
    | tasks => w.beginAll w.threads.length tasks
  | _ => []

/-- What the next turn adds to the record. -/
def taken (env : Surroundings σ) (w : World σ) : List (Moment σ) :=
  match w.turns with
  | .step i :: _ =>
    match w.state? i with
    | some (.running (.done r)) => [⟨i, w, .ends r⟩]
    | some (.running (.ask r _)) => ⟨i, w, .asks r⟩ :: w.ensuing env i r
    | some (.joining children 0 cancelled _) =>
      [⟨i, w, .hears (if cancelled then .error .cancelled else .ok (children.map w.resultOf))⟩]
    | _ => []
  | _ => []

/-- What an act of the host adds to the record. A cancellation is not recorded. -/
def acted (env : Surroundings σ) (w : World σ) : Act σ → List (Moment σ)
  | .receive m =>
    [⟨w.threads.length, w,
      .begins ((env.dispatcher.process env.host m).bind fun r => .done (.outcome r))⟩]
  | .perform script =>
    [⟨w.threads.length, w, .begins ((Engine.runScript script).bind fun r => .done (.value r))⟩]
  | .answer i x =>
    match w.state? i with
    | some (.waiting _) => [⟨i, w, .resumes x⟩]
    | _ => []
  | _ => []

/-- A run with its record, from a world and a record on. -/
inductive Records (env : Surroundings σ) (permitted : Act σ → Prop) (log₀ : List (Moment σ))
    (w₀ : World σ) : List (Moment σ) → World σ → Prop where
  | start : Records env permitted log₀ w₀ log₀ w₀
  | tick {log : List (Moment σ)} {w : World σ} (run : Records env permitted log₀ w₀ log w) :
      Records env permitted log₀ w₀ (log ++ w.taken env) (w.tick env)
  | act {log : List (Moment σ)} {w : World σ} (run : Records env permitted log₀ w₀ log w)
      (a : Act σ) (ha : permitted a) :
      Records env permitted log₀ w₀ (log ++ w.acted env a) (w.act env a)

/-- The record and the world after these acts; nothing stands for a turn. -/
def follow (env : Surroundings σ) :
    List (Option (Act σ)) → List (Moment σ) → World σ → List (Moment σ) × World σ
  | [], log, w => (log, w)
  | none :: rest, log, w => follow env rest (log ++ w.taken env) (w.tick env)
  | some a :: rest, log, w => follow env rest (log ++ w.acted env a) (w.act env a)

theorem Records.follow {env : Surroundings σ} {permitted : Act σ → Prop} {log₀ log : List (Moment σ)}
    {w₀ w : World σ} (run : Records env permitted log₀ w₀ log w) {acts : List (Option (Act σ))}
    (permits : ∀ a, some a ∈ acts → permitted a) :
    Records env permitted log₀ w₀ (World.follow env acts log w).1 (World.follow env acts log w).2 := by
  induction acts generalizing log w with
  | nil => exact run
  | cons a acts ih =>
    have later : ∀ a, some a ∈ acts → permitted a := fun a ha => permits a (List.mem_cons_of_mem _ ha)
    cases a with
    | none => exact ih run.tick later
    | some a => exact ih (run.act a (permits a List.mem_cons_self)) later

end World

/-- The host does not cancel threads. -/
def Act.Patient : Act σ → Prop
  | .cancel _ => False
  | _ => True

/-- How a thread moves while the world changes, and what it does. -/
inductive ThreadState.Goes (env : Surroundings σ) (w : World σ) (k : Nat) :
    ThreadState σ → List (Moment σ) → ThreadState σ → Prop where
  | stays (st : ThreadState σ) : Goes env w k st [] st
  | answered {r : EngineRequest σ} {next : r.Answer → Task σ} {x : r.Answer} {s : Shared σ}
      (answer : Answers env w.shared r x s) :
      Goes env w k (.running (.ask r next)) [⟨k, w, .asks r⟩] (.running (next x))
  | unfolded {r : EngineRequest σ} {next : r.Answer → Task σ} {p : Engine σ r.Answer}
      (expands : Expands env r p) :
      Goes env w k (.running (.ask r next)) [⟨k, w, .asks r⟩] (.running (p.bind next))
  | waits (next : Except Fault Value → Task σ) :
      Goes env w k (.running (.ask (.effect .wait) next)) [⟨k, w, .asks (.effect .wait)⟩]
        (.waiting next)
  | resumed (next : Except Fault Value → Task σ) (x : Except Fault Value) :
      Goes env w k (.waiting next) [⟨k, w, .resumes x⟩] (.running (next x))
  | unheard {listeners : List Hook} {arguments : List Value} {options : Assoc Value}
      (next : Except Fault (List (Except Fault Value)) → Task σ) :
      Goes env w k (.running (.ask (.notify listeners arguments options) next))
        [⟨k, w, .asks (.notify listeners arguments options)⟩, ⟨k, w, .hears (.ok [])⟩]
        (.running (next (.ok [])))
  | notifies {listeners : List Hook} {arguments : List Value} {options : Assoc Value}
      (next : Except Fault (List (Except Fault Value)) → Task σ) :
      Goes env w k (.running (.ask (.notify listeners arguments options) next))
        [⟨k, w, .asks (.notify listeners arguments options)⟩]
        (.joining (List.range' w.threads.length listeners.length) listeners.length false next)
  | told {children : List Nat} {missing : Nat} {cancelled : Bool}
      (next : Except Fault (List (Except Fault Value)) → Task σ) :
      Goes env w k (.joining children (missing + 1) cancelled next) []
        (.joining children missing cancelled next)
  | heard {children : List Nat} {cancelled : Bool}
      (next : Except Fault (List (Except Fault Value)) → Task σ)
      (xs : Except Fault (List (Except Fault Value))) :
      Goes env w k (.joining children 0 cancelled next) [⟨k, w, .hears xs⟩] (.running (next xs))
  | ends (r : Finish) : Goes env w k (.running (.done r)) [⟨k, w, .ends r⟩] (.finished r)

theorem ThreadState.Goes.before {env : Surroundings σ} {w : World σ} {k : Nat} {st st' : ThreadState σ}
    {t : List (Moment σ)} (goes : Goes env w k st t st') {m : Moment σ} (h : m ∈ t) : m.before = w := by
  cases goes <;> simp at h <;> grind

namespace World
variable {env : Surroundings σ} {w w' : World σ} {i : Nat} {rest : List Turn}

/-- Each thread moves as the new part of the record says, and new threads begin there. -/
structure Moves (env : Surroundings σ) (w w' : World σ) (new : List (Moment σ)) : Prop where
  old : ∀ k st, w.state? k = some st →
    ∃ st', w'.state? k = some st' ∧ ThreadState.Goes env w k st (own k new) st'
  fresh : ∀ k st, w.state? k = none → w'.state? k = some st →
    ∃ p, own k new = [⟨k, w, .begins p⟩] ∧ st = .running p
  absent : ∀ k, w'.state? k = none → own k new = []

theorem state?_eq_none_iff {k : Nat} : w.state? k = none ↔ w.threads.length ≤ k := by
  rw [state?_eq, Option.map_eq_none_iff, List.getElem?_eq_none_iff]

theorem Moves.before {new : List (Moment σ)} (moves : Moves env w w' new) {m : Moment σ} (h : m ∈ new) :
    m.before = w := by
  have mine : m ∈ own m.thread new := mem_own.2 ⟨h, rfl⟩
  cases hs : w.state? m.thread with
  | some st =>
    obtain ⟨st', -, goes⟩ := moves.old _ st hs
    exact goes.before mine
  | none =>
    cases hs' : w'.state? m.thread with
    | some st =>
      obtain ⟨p, begins, -⟩ := moves.fresh _ st hs hs'
      rw [begins, List.mem_singleton] at mine
      rw [mine]
    | none =>
      rw [moves.absent _ hs'] at mine
      cases mine

theorem Moves.grows {new : List (Moment σ)} (moves : Moves env w w' new) :
    w.threads.length ≤ w'.threads.length := by
  by_contra fewer
  obtain ⟨st, hs⟩ := Option.ne_none_iff_exists'.1 (mt state?_eq_none_iff.1 fewer)
  obtain ⟨st', hs', -⟩ := moves.old _ st hs
  exact (lt_of_state? hs').false

theorem Moves.of_same (same : w'.threads = w.threads) : Moves env w w' [] where
  old k st hs := ⟨st, by simpa [state?_eq, same] using hs, .stays st⟩
  fresh k st none some := by simp [state?_eq, same] at none some; simp [none] at some
  absent _ _ := rfl

theorem Moves.of_setState {st st' : ThreadState σ} {new : List (Moment σ)} {turns : List Turn}
    {shared : Shared σ} (state : w.state? i = some st) (goes : ThreadState.Goes env w i st new st')
    (mine : ∀ m ∈ new, m.thread = i) :
    Moves env w { w.setState i st' with turns, shared } new where
  old k old hk := by
    by_cases same : i = k
    · subst same
      obtain rfl : old = st := Option.some.inj (hk.symm.trans state)
      refine ⟨st', ?_, by rwa [own_eq_self mine]⟩
      exact (state?_setState w i i st').trans (by simp [state])
    · refine ⟨old, ?_, ?_⟩
      · exact (state?_setState w i k st').trans (by rw [if_neg same, hk])
      · rw [own_eq_nil fun m hm => mine m hm ▸ same]
        exact .stays old
  fresh k st none some := by
    have some' := (state?_setState w i k st').symm.trans some
    split at some' <;> simp [none] at some'
  absent k none := by
    apply own_eq_nil
    rintro m hm rfl
    have none' := (state?_setState w i m.thread st').symm.trans none
    rw [mine m hm, if_pos rfl, state] at none'
    cases none'

theorem own_beginAll (w : World σ) (k n : Nat) (ps : List (Task σ)) :
    own k (w.beginAll n ps) =
      if n ≤ k then ((ps[k - n]?).map fun p => ⟨k, w, .begins p⟩).toList else [] := by
  induction ps generalizing n with
  | nil => simp [beginAll]
  | cons p ps ih =>
    rw [beginAll, own_cons, ih]
    rcases lt_trichotomy n k with h | rfl | h
    · obtain ⟨d, rfl⟩ := Nat.exists_eq_add_of_lt h
      simp [show n ≠ n + d + 1 by omega, show n + 1 ≤ n + d + 1 by omega,
        show n + d + 1 - n = d + 1 by omega, show n ≤ n + d + 1 by omega]
    · simp
    · simp [show n ≠ k by omega, show ¬ n + 1 ≤ k by omega, show ¬ n ≤ k by omega]

/-- Threads that are added begin at once. -/
theorem Moves.append {w₁ : World σ} {new : List (Moment σ)} (moves : Moves env w w₁ new)
    (length : w₁.threads.length = w.threads.length) (turns : List Turn) (ts : List (Thread σ))
    (ps : List (Task σ)) (states : ts.map (·.state) = ps.map .running) :
    Moves env w { w₁ with threads := w₁.threads ++ ts, turns }
      (new ++ w.beginAll w.threads.length ps) where
  old k st hs := by
    have hk := lt_of_state? hs
    obtain ⟨st', hs', goes⟩ := moves.old k st hs
    refine ⟨st', ?_, ?_⟩
    · rw [state?_eq] at hs' ⊢
      rwa [List.getElem?_append_left (by omega)]
    · rw [own_append, own_beginAll, if_neg (by omega), List.append_nil]
      exact goes
  fresh k st none some := by
    have hk := state?_eq_none_iff.1 none
    rw [state?_eq, List.getElem?_append_right (by omega), ← List.getElem?_map, states,
      List.getElem?_map, Option.map_eq_some_iff, length] at some
    obtain ⟨p, hp, rfl⟩ := some
    refine ⟨p, ?_, rfl⟩
    rw [own_append, moves.absent k (state?_eq_none_iff.2 (by omega)), own_beginAll, if_pos hk, hp]
    rfl
  absent k none := by
    have hk := state?_eq_none_iff.1 none
    have same := congrArg List.length states
    simp only [List.length_map, List.length_append] at same hk
    rw [own_append, moves.absent k (state?_eq_none_iff.2 (by omega)), own_beginAll]
    split
    · rw [List.getElem?_eq_none (by omega)]
      rfl
    · rfl

theorem ensuing_of_answers {s s' : Shared σ} {r : EngineRequest σ} {x : r.Answer}
    (h : Answers env s r x s') (w : World σ) (i : Nat) : w.ensuing env i r = [] := by
  cases h <;> rfl

theorem ensuing_of_expands {r : EngineRequest σ} {p : Engine σ r.Answer} (h : Expands env r p)
    (w : World σ) (i : Nat) : w.ensuing env i r = [] := by
  cases h <;> rfl

theorem taken_ask {r : EngineRequest σ} {next : r.Answer → Task σ} (h : w.turns = .step i :: rest)
    (state : w.state? i = some (.running (.ask r next))) :
    w.taken env = ⟨i, w, .asks r⟩ :: w.ensuing env i r := by
  simp [taken, h, state]

theorem taken_report (h : w.turns = .report i :: rest) : w.taken env = [] := by
  simp [taken, h]

/-- A thread that does not run and has all to wait for does nothing in its turn. -/
theorem taken_of_idle (h : w.turns = .step i :: rest)
    (idle : ∀ st, w.state? i = some st →
      (∃ next, st = .waiting next) ∨ (∃ r, st = .finished r) ∨
        ∃ children missing cancelled next, st = .joining children (missing + 1) cancelled next) :
    w.taken env = [] := by
  simp only [taken, h]
  cases hs : w.state? i with
  | none => rfl
  | some st => rcases idle st hs with ⟨_, rfl⟩ | ⟨_, rfl⟩ | ⟨_, _, _, _, rfl⟩ <;> rfl

theorem listening_eq_nil {listeners : List Hook} {arguments : List Value} {options : Assoc Value}
    (h : listenerTasks env listeners arguments options = []) :
    listening env listeners arguments options = [] := by
  simp [listening, h]

/-- A request of listeners has their tasks begun. -/
theorem ensuing_notify {listeners : List Hook} {arguments : List Value} {options : Assoc Value}
    (some : listenerTasks env listeners arguments options ≠ []) :
    w.ensuing env i (.notify listeners arguments options) =
      w.beginAll w.threads.length (listening env listeners arguments options) := by
  have some' : listening env listeners arguments options ≠ [] := by simpa [listening] using some
  unfold ensuing
  dsimp only
  split
  case h_1 none => exact absurd none some'
  case h_2 => rfl

theorem mem_beginAll {m : Moment σ} {n : Nat} {ps : List (Task σ)} (h : m ∈ w.beginAll n ps) :
    n ≤ m.thread ∧ m.thread < n + ps.length ∧ ∃ p ∈ ps, m.deed = .begins p := by
  induction ps generalizing n with
  | nil => cases h
  | cons p ps ih =>
    rw [List.length_cons]
    rcases List.mem_cons.1 h with rfl | h
    · exact ⟨le_rfl, Nat.lt_add_of_pos_right (Nat.succ_pos _), p, List.mem_cons_self, rfl⟩
    · obtain ⟨later, within, q, hq, begins⟩ := ih h
      exact ⟨by omega, by omega, q, List.mem_cons_of_mem p hq, begins⟩

/-- With a request threads begin for listeners, or there are none and nothing is heard of them. -/
theorem mem_ensuing {m : Moment σ} {r : EngineRequest σ} (h : m ∈ w.ensuing env i r) :
    (m.thread = i ∧ m.deed = .hears (.ok [])) ∨
      w.threads.length ≤ m.thread ∧ ∃ k arguments options, m.deed =
        .begins ((Engine.runScript (env.host.listener k arguments options)).bind fun r =>
          .done (.value r)) := by
  unfold ensuing at h
  split at h
  case h_2 => cases h
  case h_1 listeners arguments options =>
    split at h
    case h_1 =>
      obtain rfl := List.mem_singleton.1 h
      exact .inl ⟨rfl, rfl⟩
    case h_2 =>
      obtain ⟨new, -, p, hp, begins⟩ := mem_beginAll h
      obtain ⟨_, listened, rfl⟩ := List.mem_map.1 hp
      obtain ⟨k, -, rfl⟩ := List.mem_map.1 listened
      exact .inr ⟨new, k, arguments, options, begins⟩

theorem thread_le_of_mem_ensuing {m : Moment σ} {listeners : List Hook} {arguments : List Value}
    {options : Assoc Value} (h : m ∈ w.ensuing env i (.notify listeners arguments options)) :
    m.thread = i ∨ m.thread < w.threads.length + listeners.length := by
  unfold ensuing at h
  dsimp only at h
  split at h
  case h_1 =>
    obtain rfl := List.mem_singleton.1 h
    exact .inl rfl
  case h_2 =>
    obtain ⟨-, within, -⟩ := mem_beginAll h
    rw [listening, listenerTasks, List.length_map, List.length_map] at within
    exact .inr within

/-- What a turn adds to the record. -/
inductive Takes (env : Surroundings σ) (w : World σ) : List (Moment σ) → Prop where
  | nothing : Takes env w []
  | asks {i : Nat} {rest : List Turn} {r : EngineRequest σ} {next : r.Answer → Task σ}
      (turns : w.turns = .step i :: rest) (state : w.state? i = some (.running (.ask r next))) :
      Takes env w (⟨i, w, .asks r⟩ :: w.ensuing env i r)
  | ends {i : Nat} {rest : List Turn} {r : Finish} (turns : w.turns = .step i :: rest)
      (state : w.state? i = some (.running (.done r))) : Takes env w [⟨i, w, .ends r⟩]
  | hears {i : Nat} {rest : List Turn} {children : List Nat} {cancelled : Bool}
      {next : Except Fault (List (Except Fault Value)) → Task σ} (turns : w.turns = .step i :: rest)
      (state : w.state? i = some (.joining children 0 cancelled next)) : Takes env w
        [⟨i, w, .hears (if cancelled then .error .cancelled else .ok (children.map w.resultOf))⟩]

theorem takes (env : Surroundings σ) (w : World σ) : Takes env w (w.taken env) := by
  unfold taken
  split
  case h_2 => exact .nothing
  case h_1 i rest turns =>
    split
    case h_1 r state => exact .ends turns state
    case h_2 r next state => exact .asks turns state
    case h_3 children cancelled next state => exact .hears turns state
    case h_4 => exact .nothing

/-- With an act of the host a thread begins, or it goes on with what it has waited for. -/
theorem mem_acted {m : Moment σ} {a : Act σ} (h : m ∈ w.acted env a) :
    (∃ p, m.deed = .begins p) ∨ ∃ x, m.deed = .resumes x := by
  unfold acted at h
  split at h
  case h_1 | h_2 =>
    obtain rfl := List.mem_singleton.1 h
    exact .inl ⟨_, rfl⟩
  case h_3 =>
    split at h
    · obtain rfl := List.mem_singleton.1 h
      exact .inr ⟨_, rfl⟩
    · cases h
  case h_4 => cases h

theorem before_of_mem_acted {m : Moment σ} {a : Act σ} (h : m ∈ w.acted env a) : m.before = w := by
  unfold acted at h
  split at h
  case h_1 | h_2 =>
    obtain rfl := List.mem_singleton.1 h
    rfl
  case h_3 =>
    split at h
    · obtain rfl := List.mem_singleton.1 h
      rfl
    · cases h
  case h_4 => cases h

theorem moves_tick (env : Surroundings σ) (w : World σ) : Moves env w (w.tick env) (w.taken env) := by
  have ticked := tick_ticked env w
  generalize w.tick env = w' at ticked
  cases ticked with
  | rest h =>
    rw [show w.taken env = [] by simp [taken, h]]
    exact .of_same rfl
  | @dropStep i rest h idle =>
    rw [taken_of_idle h idle]
    exact .of_same rfl
  | dropReport h idle =>
    rw [taken_report h]
    exact .of_same rfl
  | answer h state answered =>
    rw [taken_ask h state, ensuing_of_answers answered]
    exact .of_setState state (.answered answered) (by simp)
  | expand h state expands =>
    rw [taken_ask h state, ensuing_of_expands expands]
    exact .of_setState state (.unfolded expands) (by simp)
  | wait h state =>
    rw [taken_ask h state]
    exact .of_setState state (.waits _) (by simp [ensuing])
  | @notifyNone i rest listeners arguments options next h state none =>
    rw [taken_ask h state, ensuing, listening_eq_nil none]
    exact .of_setState state (.unheard _) (by simp)
  | @spawn i rest t listeners arguments options next h thread state some =>
    have hs : w.state? i = Option.some (.running (.ask (.notify listeners arguments options) next)) :=
      state ▸ state?_of_thread thread
    rw [taken_ask h hs, ensuing_notify some]
    have goes : ThreadState.Goes env w i (.running (.ask (.notify listeners arguments options) next))
        [⟨i, w, .asks (.notify listeners arguments options)⟩] _ := .notifies next
    -- the thread comes to wait first, and then the threads are added for which it waits
    have joins : Moves env w { w.setState i _ with turns := rest } _ :=
      .of_setState hs goes (by simp)
    have spawned := joins.append (by simp [setState])
      (rest ++ (List.range' w.threads.length listeners.length).map Turn.step)
      ((listenerTasks env listeners arguments options).map fun p =>
        { state := .running (p.bind fun r => .done (.value r)), parent := Option.some i, root := t.root })
      (listening env listeners arguments options) (by simp [listening, Function.comp_def])
    simpa [World.spawn, setState, listenerTasks] using spawned
  | @stop i rest t r h thread state =>
    have hs : w.state? i = some (.running (.done r)) := state ▸ state?_of_thread thread
    rw [show w.taken env = [⟨i, w, .ends r⟩] by simp [taken, h, hs]]
    exact .of_setState hs (.ends r) (by simp)
  | @join i rest children cancelled next h state =>
    simp only [taken, h, state]
    exact .of_setState state (.heard next _) (by simp)
  | hear h thread isChild state =>
    rw [taken_report h]
    exact .of_setState state (.told _) (by simp)

theorem moves_act (env : Surroundings σ) (w : World σ) {a : Act σ} (ha : a.Patient) :
    Moves env w (w.act env a) (w.acted env a) := by
  have still : Moves env w w [] := .of_same rfl
  have started : ∀ p : Task σ,
      Moves env w (w.start p).1 [⟨w.threads.length, w, .begins p⟩] := fun p =>
    still.append rfl _ [{ state := .running p, root := w.threads.length }] [p] rfl
  cases a with
  | receive m => exact started _
  | perform script => exact started _
  | answer i x =>
    cases state : w.state? i with
    | none => simpa only [act, acted, state] using still
    | some st =>
      cases st with
      | waiting next =>
        simp only [act, acted, state]
        exact .of_setState state (.resumed next x) (by simp)
      | _ => simpa only [act, acted, state] using still
  | cancel root => exact ha.elim
  | arrange turns =>
    simp only [act]
    split <;> exact .of_same rfl
  | adjust change => exact .of_same rfl

end World

/-- After these deeds a thread that began the task is in this state. -/
def ThreadState.After (env : Surroundings σ) (p : Task σ) (t : List (Moment σ)) :
    ThreadState σ → Prop
  | .running q => ∀ u o, Plays env q u o → Plays env p (t ++ u) o
  | .waiting next => ∃ t' m, t = t' ++ [m] ∧ m.deed = .asks (.effect .wait) ∧
      ∀ u o, Plays env (.ask (.effect .wait) next) u o → Plays env p (t' ++ u) o
  | .joining children _ _ next => ∃ t' m listeners arguments options, t = t' ++ [m] ∧
      m.deed = .asks (.notify listeners arguments options) ∧
      children = List.range' m.before.threads.length listeners.length ∧
      ∀ u o, Plays env (.ask (.notify listeners arguments options) next) u o → Plays env p (t' ++ u) o
  | .finished r => ∃ t' m, t = t' ++ [m] ∧ m.deed = .ends r ∧ Plays env p t' (some r)

namespace ThreadState
variable {env : Surroundings σ} {w : World σ} {k : Nat} {p : Task σ} {t new : List (Moment σ)}
  {st st' : ThreadState σ}

theorem After.goes (after : st.After env p t) (goes : Goes env w k st new st') :
    st'.After env p (t ++ new) := by
  cases goes with
  | stays => simpa using after
  | answered answer =>
    intro u o plays
    simpa using after (_ :: u) o (.answered rfl answer plays)
  | unfolded expands =>
    intro u o plays
    simpa using after (_ :: u) o (.unfolded rfl expands plays)
  | waits next => exact ⟨t, _, rfl, rfl, after⟩
  | resumed next x =>
    obtain ⟨t, m, rfl, asked, after⟩ := after
    intro u o plays
    simpa using after (m :: _ :: u) o (.resumed asked rfl plays)
  | unheard next =>
    intro u o plays
    simpa using after (_ :: _ :: u) o (.heard rfl rfl plays)
  | notifies next => exact ⟨t, _, _, _, _, rfl, rfl, rfl, after⟩
  | told next => rwa [List.append_nil]
  | heard next xs =>
    obtain ⟨t, m, listeners, arguments, options, rfl, asked, -, after⟩ := after
    intro u o plays
    simpa using after (m :: _ :: u) o (.heard asked rfl plays)
  | ends r =>
    refine ⟨t, _, rfl, rfl, ?_⟩
    simpa using after [] (some r) (.done r)

/-- What a thread has done plays its task, up to its end if the thread has ended. -/
theorem After.plays (after : st.After env p t) :
    (∃ u m r, st = .finished r ∧ t = u ++ [m] ∧ m.deed = .ends r ∧ Plays env p u (some r)) ∨
      (∀ r, st ≠ .finished r) ∧ Plays env p t none := by
  cases st with
  | running q =>
    refine .inr ⟨by simp, ?_⟩
    simpa using after [] none (.pause q)
  | waiting next =>
    obtain ⟨t, m, rfl, asked, after⟩ := after
    exact .inr ⟨by simp, after [m] none (.waits asked)⟩
  | joining children missing cancelled next =>
    obtain ⟨t, m, listeners, arguments, options, rfl, asked, -, after⟩ := after
    exact .inr ⟨by simp, after [m] none (.notifies asked)⟩
  | finished r =>
    obtain ⟨t, m, rfl, ended, plays⟩ := after
    exact .inl ⟨t, m, r, rfl, rfl, ended, plays⟩

end ThreadState

/-- The record says of each thread what it began and what it has done since. -/
structure Traced (env : Surroundings σ) (log : List (Moment σ)) (w : World σ) : Prop where
  begun : ∀ k st, w.state? k = some st →
    ∃ m p t, own k log = m :: t ∧ m.deed = .begins p ∧ st.After env p t
  unborn : ∀ k, w.state? k = none → own k log = []

namespace Traced
variable {env : Surroundings σ} {log new : List (Moment σ)} {w w' : World σ}

theorem of_empty (h : w.threads = []) : Traced env [] w where
  begun k st hs := by simp [World.state?_eq, h] at hs
  unborn _ _ := rfl

theorem moves (traced : Traced env log w) (moves : w.Moves env w' new) :
    Traced env (log ++ new) w' where
  begun k st' hs' := by
    rw [own_append]
    cases hs : w.state? k with
    | some st =>
      obtain ⟨m, p, t, mine, begins, after⟩ := traced.begun k st hs
      obtain ⟨st'', hs'', goes⟩ := moves.old k st hs
      obtain rfl := Option.some.inj (hs''.symm.trans hs')
      exact ⟨m, p, t ++ own k new, by simp [mine], begins, after.goes goes⟩
    | none =>
      obtain ⟨p, mine, rfl⟩ := moves.fresh k st' hs hs'
      exact ⟨_, p, [], by rw [traced.unborn k hs, mine]; rfl, rfl, fun u o plays => plays⟩
  unborn k none := by
    cases hs : w.state? k with
    | some st =>
      obtain ⟨st', hs', -⟩ := moves.old k st hs
      simp [hs'] at none
    | none => rw [own_append, traced.unborn k hs, moves.absent k none, List.append_nil]

/-- A thread that has ended has played what it has begun. -/
theorem ended {α : Type} {g : α → Finish} (traced : Traced env log w) {k : Nat} {r : Finish}
    (finished : w.state? k = some (.finished r)) {p : Engine σ α} {b : Moment σ} {t : List (Moment σ)}
    (begun : own k log = b :: t) (begins : b.deed = .begins (p.bind fun a => .done (g a))) :
    ∃ u e a, t = u ++ [e] ∧ e.deed = .ends r ∧ r = g a ∧ Plays env p u (some a) := by
  obtain ⟨b', p', t', begun', begins', u, e, rfl, ends, plays⟩ := traced.begun k _ finished
  obtain ⟨rfl, rfl⟩ := List.cons.inj (begun.symm.trans begun')
  obtain rfl := Deed.begins.inj (begins.symm.trans begins')
  rcases plays.of_bind with ⟨⟨⟩, -⟩ | ⟨u, v, a, rfl, first, last⟩
  cases last
  exact ⟨u, e, a, by simp, ends, rfl, first⟩

end Traced

namespace World
variable {env : Surroundings σ} {permitted : Act σ → Prop} {log₀ log : List (Moment σ)}
  {w₀ w : World σ}

theorem Records.traced (run : Records env permitted log₀ w₀ log w) (start : Traced env log₀ w₀)
    (patient : ∀ a, permitted a → a.Patient) : Traced env log w := by
  induction run with
  | start => exact start
  | tick run ih => exact ih.moves (moves_tick env _)
  | act run a ha ih => exact ih.moves (moves_act env _ (patient a ha))

/-- Recorded runs are runs. -/
theorem Records.reaches {first : World σ} {h₀ : List Entry}
    (run : Records env permitted log₀ w₀ log w) (before : Reaches env permitted first h₀ w₀) :
    ∃ h, Reaches env permitted first h w ∧ h₀ ⊆ h := by
  induction run with
  | start => exact ⟨h₀, before, List.Subset.refl _⟩
  | tick run ih =>
    obtain ⟨h, reaches, older⟩ := ih
    exact ⟨_, reaches.tick, List.subset_append_of_subset_right _ older⟩
  | act run a ha ih =>
    obtain ⟨h, reaches, older⟩ := ih
    exact ⟨_, reaches.act a ha, List.subset_append_of_subset_right _ older⟩

end World
end ChatCommands
