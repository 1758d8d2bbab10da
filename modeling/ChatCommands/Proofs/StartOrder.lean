import Mathlib
import ChatCommands.Proofs.ListenerCalls

set_option autoImplicit false

/-!
# The order in which threads start

Turns that are due are taken first come, first served, and a thread is due from
its beginning on. So as long as the host does not rearrange the turns, no thread
does anything before all threads with smaller numbers have done something.
-/
namespace ChatCommands
variable {σ : Type}

/-- The thread has begun and has done nothing since. -/
def Idle (log : List (Moment σ)) (j : Nat) : Prop := ∃ m, own j log = [m]

/-- The host neither cancels threads nor rearranges turns. -/
def Act.Fair : Act σ → Prop
  | .cancel _ | .arrange _ => False
  | _ => True

theorem Act.Fair.patient {a : Act σ} (h : a.Fair) : a.Patient := by
  cases a <;> trivial

namespace World
variable {env : Surroundings σ} {w w' : World σ} {log new : List (Moment σ)}

/-- Of two turns that are due, the first steps of idle threads among them are in order. -/
def Precedes (log : List (Moment σ)) (a b : Turn) : Prop :=
  ∀ i j, a = .step i → b = .step j → Idle log i → Idle log j → i ≤ j

/-- Idle threads are due in order, and all threads after them are idle too. -/
structure InOrder (log : List (Moment σ)) (w : World σ) : Prop where
  queued : w.turns.Pairwise (Precedes log)
  due : ∀ j, Idle log j → .step j ∈ w.turns
  known : ∀ j, .step j ∈ w.turns → j < w.threads.length
  older : ∀ i j, i < j → Idle log i → own j log ≠ [] → Idle log j

theorem inOrder_of_empty (turns : w.turns = []) : InOrder [] w where
  queued := by simp [turns]
  due j h := by obtain ⟨m, h⟩ := h; cases h
  known j h := by simp [turns] at h
  older i j _ h := by obtain ⟨m, h⟩ := h; cases h

theorem running_of_idle {j : Nat} (idle : Idle log j) (traced : Traced env log w) :
    ∃ p, w.state? j = some (.running p) := by
  obtain ⟨m, mine⟩ := idle
  cases hs : w.state? j with
  | none => simp [traced.unborn j hs] at mine
  | some st =>
    obtain ⟨b, p, t, mine', -, after⟩ := traced.begun j st hs
    obtain ⟨-, rfl⟩ := List.cons.inj (mine.symm.trans mine')
    cases st with
    | running q => exact ⟨q, rfl⟩
    | waiting next => obtain ⟨t, m, h, -⟩ := after; simp at h
    | joining => obtain ⟨t, m, _, _, _, h, -⟩ := after; simp at h
    | finished r => obtain ⟨t, m, h, -⟩ := after; simp at h

/-- A thread that is still idle was idle before or begins now. -/
theorem idle_of_append {j : Nat} (idle : Idle (log ++ new) j) (traced : Traced env log w) :
    (j < w.threads.length ∧ Idle log j ∧ own j new = []) ∨
      (w.threads.length ≤ j ∧ own j log = [] ∧ own j new ≠ []) := by
  obtain ⟨m, mine⟩ := idle
  rw [own_append] at mine
  cases hs : w.state? j with
  | none =>
    rw [traced.unborn j hs, List.nil_append] at mine
    exact .inr ⟨state?_eq_none_iff.1 hs, traced.unborn j hs, by simp [mine]⟩
  | some st =>
    obtain ⟨b, p, t, begun, -⟩ := traced.begun j st hs
    rw [begun, List.cons_append] at mine
    obtain ⟨rfl, rest⟩ := List.cons.inj mine
    obtain ⟨rfl, none⟩ := List.append_eq_nil_iff.1 rest
    exact .inl ⟨lt_of_state? hs, ⟨b, begun⟩, none⟩

/-- Turns are taken from those that are due and are added behind them. -/
theorem InOrder.next (hw : InOrder log w) (traced : Traced env log w) (moves : Moves env w w' new)
    (kept added : List Turn) (turns : w'.turns = kept ++ added) (sub : kept.Sublist w.turns)
    (grows : w.threads.length ≤ w'.threads.length)
    (stays : ∀ j, Idle log j → own j new = [] → .step j ∈ kept)
    (turned : ∀ j < w.threads.length, own j new ≠ [] → ∀ i ≠ j, .step i ∈ w.turns →
      Idle log i → Idle log j → j ≤ i)
    (comes : ∀ j, w.threads.length ≤ j → own j new ≠ [] → .step j ∈ added)
    (sorted : added.Pairwise (Precedes (log ++ new)))
    (fresh : ∀ j, .step j ∈ added → Idle (log ++ new) j → w.threads.length ≤ j)
    (range : ∀ j, .step j ∈ added → j < w'.threads.length) : InOrder (log ++ new) w' := by
  constructor
  · rw [turns, List.pairwise_append]
    refine ⟨(hw.queued.sublist sub).imp_of_mem ?_, sorted, ?_⟩
    · rintro _ _ ha hb before i j rfl rfl hi hj
      have old : ∀ k, .step k ∈ kept → Idle (log ++ new) k → Idle log k := by
        intro k hk idle
        rcases idle_of_append idle traced with ⟨-, idle, -⟩ | ⟨beyond, -⟩
        · exact idle
        · exact absurd (hw.known k (sub.subset hk)) (by omega)
      exact before i j rfl rfl (old i ha hi) (old j hb hj)
    · rintro _ ha _ hb i j rfl rfl hi hj
      have := hw.known i (sub.subset ha)
      have := fresh j hb hj
      omega
  · intro j idle
    rw [turns, List.mem_append]
    rcases idle_of_append idle traced with ⟨-, idle, none⟩ | ⟨beyond, -, some⟩
    · exact .inl (stays j idle none)
    · exact .inr (comes j beyond some)
  · intro j hj
    rw [turns, List.mem_append] at hj
    rcases hj with old | new
    · exact (hw.known j (sub.subset old)).trans_le grows
    · exact range j new
  · intro i j hij idle some
    -- an older thread that is idle has kept the younger one from its turn; a new thread is idle anyway
    rcases Nat.lt_or_ge j w.threads.length with hj | hj
    · obtain ⟨-, idle, -⟩ | ⟨beyond, -⟩ := idle_of_append idle traced
      · obtain ⟨st, hs⟩ := Option.ne_none_iff_exists'.1 (mt state?_eq_none_iff.1 (by omega) :
          w.state? j ≠ none)
        obtain ⟨b, p, t, begun, -⟩ := traced.begun j st hs
        have idle' := hw.older i j hij idle (by simp [begun])
        cases own' : own j new with
        | nil =>
          obtain ⟨m, mine⟩ := idle'
          exact ⟨m, by rw [own_append, mine, own', List.append_nil]⟩
        | cons m t =>
          have := turned j hj (by simp [own']) i (by omega) (hw.due i idle) idle idle'
          omega
      · omega
    · have none := state?_eq_none_iff.2 hj
      rw [own_append, traced.unborn j none, List.nil_append] at some
      cases hs : w'.state? j with
      | none => exact absurd (moves.absent j hs) some
      | some st =>
        obtain ⟨p, mine, -⟩ := moves.fresh j st none hs
        exact ⟨_, by rw [own_append, traced.unborn j none, mine]; rfl⟩

variable {i : Nat} {rest : List Turn}

theorem turn_of_own_taken {j : Nat} (hj : j < w.threads.length) (some : own j (w.taken env) ≠ []) :
    ∃ rest, w.turns = .step j :: rest := by
  obtain ⟨m, mine⟩ := List.exists_mem_of_ne_nil _ some
  obtain ⟨hm, rfl⟩ := mem_own.1 mine
  clear mine some
  have takes := w.takes env
  generalize w.taken env = new at hm takes
  cases takes with
  | nothing => cases hm
  | @asks i rest r next turns state =>
    rcases List.mem_cons.1 hm with rfl | hm
    · exact ⟨rest, turns⟩
    · rcases mem_ensuing hm with ⟨same, -⟩ | ⟨beyond, -⟩
      · exact ⟨rest, same ▸ turns⟩
      · omega
  | ends turns | hears turns =>
    obtain rfl := List.mem_singleton.1 hm
    exact ⟨_, turns⟩

theorem own_taken_of_running {p : Task σ} (h : w.turns = .step i :: rest)
    (state : w.state? i = some (.running p)) : own i (w.taken env) ≠ [] := by
  cases p with
  | done r => simp [taken, h, state, own_cons]
  | ask r next => simp [taken_ask h state, own_cons]

/-- A thread that stays idle keeps its turn when another is taken. -/
theorem InOrder.stays (hw : InOrder log w) (traced : Traced env log w) (h : w.turns = .step i :: rest)
    (j : Nat) (idle : Idle log j) (none : own j (w.taken env) = []) : .step j ∈ rest := by
  have due := hw.due j idle
  rw [h, List.mem_cons] at due
  refine due.resolve_left ?_
  rintro ⟨⟩
  obtain ⟨p, state⟩ := running_of_idle idle traced
  exact own_taken_of_running h state none

theorem InOrder.turned (hw : InOrder log w) (j : Nat) (hj : j < w.threads.length)
    (some : own j (w.taken env) ≠ []) (i : Nat) (other : i ≠ j) (due : .step i ∈ w.turns)
    (idle : Idle log i) (idle' : Idle log j) : j ≤ i := by
  obtain ⟨rest, turns⟩ := turn_of_own_taken hj some
  have queued := hw.queued
  rw [turns] at queued due
  have mem := (List.mem_cons.1 due).resolve_left fun h => other (Turn.step.inj h)
  exact (List.pairwise_cons.1 queued).1 _ mem j i rfl rfl idle' idle

/-- No thread begins meanwhile, and threads that get new turns are not idle. -/
theorem InOrder.next_same (hw : InOrder log w) (traced : Traced env log w) (moves : Moves env w w' new)
    (kept added : List Turn) (turns : w'.turns = kept ++ added) (sub : kept.Sublist w.turns)
    (length : w'.threads.length = w.threads.length)
    (stays : ∀ j, Idle log j → own j new = [] → .step j ∈ kept)
    (turned : ∀ j < w.threads.length, own j new ≠ [] → ∀ i ≠ j, .step i ∈ w.turns →
      Idle log i → Idle log j → j ≤ i)
    (awake : ∀ j, .step j ∈ added → ¬ Idle log j ∧ j < w.threads.length) :
    InOrder (log ++ new) w' := by
  have awake' : ∀ j, .step j ∈ added → ¬ Idle (log ++ new) j := by
    intro j hj idle
    obtain ⟨busy, old⟩ := awake j hj
    rcases idle_of_append idle traced with ⟨-, idle, -⟩ | ⟨beyond, -⟩
    · exact busy idle
    · omega
  refine hw.next traced moves kept added turns sub length.ge stays turned ?_ ?_ ?_ ?_
  · intro j beyond some
    exact absurd (moves.absent j (state?_eq_none_iff.2 (length ▸ beyond))) some
  · refine (List.pairwise_of_forall fun _ _ => trivial : added.Pairwise fun _ _ => True).imp_of_mem ?_
    rintro _ _ ha - - i j rfl - idle -
    exact absurd idle (awake' i ha)
  · exact fun j hj idle => absurd idle (awake' j hj)
  · exact fun j hj => length ▸ (awake j hj).2

theorem InOrder.spawn (hw : InOrder log w) (traced : Traced env log w) {root : Nat}
    {tasks : List (Engine σ (Except Fault Value))}
    {next : Except Fault (List (Except Fault Value)) → Task σ} (h : w.turns = .step i :: rest)
    (moves : Moves env w ({ w with turns := rest }.spawn i root tasks next) (w.taken env)) :
    InOrder (log ++ w.taken env) ({ w with turns := rest }.spawn i root tasks next) := by
  have length : ({ w with turns := rest }.spawn i root tasks next).threads.length =
      w.threads.length + tasks.length := by
    simp [World.spawn, setState]
  have mem : ∀ j, .step j ∈ (List.range' w.threads.length tasks.length).map Turn.step →
      w.threads.length ≤ j ∧ j < w.threads.length + tasks.length := by
    intro j hj
    obtain ⟨k, hk, ⟨⟩⟩ := List.mem_map.1 hj
    exact List.mem_range'_1.1 hk
  refine hw.next traced moves rest ((List.range' w.threads.length tasks.length).map Turn.step) rfl
    (h ▸ List.sublist_cons_self _ _) (by omega) (hw.stays traced h) hw.turned ?_ ?_ ?_ ?_
  · intro j beyond begun
    refine List.mem_map_of_mem (List.mem_range'_1.2 ⟨beyond, ?_⟩)
    by_contra none
    exact begun (moves.absent j (state?_eq_none_iff.2 (by omega)))
  · refine List.pairwise_map.2 ((List.pairwise_lt_range' ..).imp ?_)
    rintro a b lt _ _ ⟨⟩ ⟨⟩ - -
    exact lt.le
  · exact fun j hj _ => (mem j hj).1
  · exact fun j hj => length ▸ (mem j hj).2

theorem InOrder.tick (hw : InOrder log w) (traced : Traced env log w) :
    InOrder (log ++ w.taken env) (w.tick env) := by
  have moves := moves_tick env w
  have ticked := tick_ticked env w
  generalize w.tick env = w' at moves ticked
  have due : ∀ j, Idle log j → own j (w.taken env) = [] → .step j ∈ w.turns := fun j idle _ =>
    hw.due j idle
  cases ticked with
  | rest h =>
    exact hw.next_same traced moves _ [] (by simp) (List.Sublist.refl _) rfl due hw.turned (by simp)
  | dropStep h idle =>
    refine hw.next_same traced moves _ [] (by simp) ?_ rfl (hw.stays traced h) hw.turned (by simp)
    exact h ▸ List.sublist_cons_self _ _
  | dropReport h idle =>
    refine hw.next_same traced moves _ [] (by simp) (h ▸ List.sublist_cons_self _ _) rfl ?_
      hw.turned (by simp)
    exact fun j idle _ => Turn.mem_rest h (hw.due j idle) (by simp)
  | answer h state answered =>
    exact hw.next_same traced moves _ [] (by simp [setState]) (List.Sublist.refl _)
      (length_setState _ _ _) due hw.turned (by simp)
  | expand h state expands =>
    exact hw.next_same traced moves _ [] (by simp [setState]) (List.Sublist.refl _)
      (length_setState _ _ _) due hw.turned (by simp)
  | notifyNone h state none =>
    exact hw.next_same traced moves _ [] (by simp [setState]) (List.Sublist.refl _)
      (length_setState _ _ _) due hw.turned (by simp)
  | join h state =>
    exact hw.next_same traced moves _ [] (by simp [setState]) (List.Sublist.refl _)
      (length_setState _ _ _) due hw.turned (by simp)
  | wait h state =>
    refine hw.next_same traced moves _ [] (by simp) ?_ (length_setState _ _ _)
      (hw.stays traced h) hw.turned (by simp)
    exact h ▸ List.sublist_cons_self _ _
  | @stop i rest t r h thread state =>
    refine hw.next_same traced moves rest
      (if t.parent.isSome then [.report i] else []) ?_ (h ▸ List.sublist_cons_self _ _)
      (length_setState _ _ _) (hw.stays traced h) hw.turned ?_
    · dsimp only
      split <;> simp
    · intro j hj
      split at hj <;> simp at hj
  | @hear i parent rest t children missing cancelled next h thread isChild state =>
    refine hw.next_same traced moves rest
      (if missing = 0 then [.step parent] else []) ?_ (h ▸ List.sublist_cons_self _ _)
      (length_setState _ _ _) (fun j idle _ => Turn.mem_rest h (hw.due j idle) (by simp)) hw.turned ?_
    · dsimp only
      split <;> simp
    · intro j hj
      split at hj
      · obtain ⟨⟩ := List.mem_singleton.1 hj
        refine ⟨fun idle => ?_, lt_of_state? state⟩
        obtain ⟨p, running⟩ := running_of_idle idle traced
        cases state.symm.trans running
      · cases hj
  | spawn h thread state some => exact hw.spawn traced h moves

theorem InOrder.start (hw : InOrder log w) (traced : Traced env log w) {p : Task σ}
    (moves : Moves env w (w.start p).1 [⟨w.threads.length, w, .begins p⟩]) :
    InOrder (log ++ [⟨w.threads.length, w, .begins p⟩]) (w.start p).1 := by
  refine hw.next traced moves w.turns [.step w.threads.length] rfl
    (List.Sublist.refl _) (by simp [World.start]) (fun j idle _ => hw.due j idle) ?_ ?_ ?_ ?_ ?_
  · exact fun j hj some => absurd (thread_of_own_singleton some) hj.ne'
  · exact fun j _ some => by simp [← thread_of_own_singleton some]
  · exact List.pairwise_singleton _ _
  · rintro j hj -
    obtain ⟨⟩ := List.mem_singleton.1 hj
    exact le_rfl
  · intro j hj
    obtain ⟨⟩ := List.mem_singleton.1 hj
    simp [World.start]

theorem InOrder.answer (hw : InOrder log w) (traced : Traced env log w) {x : Except Fault Value}
    {next : Except Fault Value → Task σ} (state : w.state? i = some (.waiting next))
    (moves : Moves env w (w.act env (.answer i x)) [⟨i, w, .resumes x⟩]) :
    InOrder (log ++ [⟨i, w, .resumes x⟩]) (w.act env (.answer i x)) := by
  have busy : ¬ Idle log i := by
    intro idle
    obtain ⟨p, running⟩ := running_of_idle idle traced
    cases state.symm.trans running
  refine hw.next_same traced moves w.turns [.step i] (by simp [World.act, state]) (List.Sublist.refl _)
    (by simp [World.act, state, setState]) (fun j idle _ => hw.due j idle) ?_ ?_
  · rintro j - some k - - - idle
    obtain rfl : i = j := thread_of_own_singleton some
    exact absurd idle busy
  · intro j hj
    obtain ⟨⟩ := List.mem_singleton.1 hj
    exact ⟨busy, lt_of_state? state⟩

theorem InOrder.act (hw : InOrder log w) (traced : Traced env log w) {a : Act σ} (ha : a.Fair) :
    InOrder (log ++ w.acted env a) (w.act env a) := by
  have moves := moves_act env w ha.patient
  cases a with
  | receive m => exact hw.start traced moves
  | perform script => exact hw.start traced moves
  | answer i x =>
    cases hs : w.state? i with
    | none => simpa [World.act, acted, hs] using hw
    | some st =>
      cases st with
      | waiting next =>
        have mine : w.acted env (.answer i x) = [⟨i, w, .resumes x⟩] := by simp [acted, hs]
        rw [mine] at moves ⊢
        exact hw.answer traced hs moves
      | _ => simpa [World.act, acted, hs] using hw
  | cancel root => exact ha.elim
  | arrange turns => exact ha.elim
  | adjust change =>
    exact hw.next_same traced moves w.turns [] (by simp [World.act]) (List.Sublist.refl _) rfl
      (fun j idle _ => hw.due j idle) (fun j _ some => absurd rfl some) (by simp)

variable {permitted : Act σ → Prop} {first : World σ}

/-- Threads do the first thing in the order in which they have begun. -/
theorem Records.inOrder (run : Records env permitted [] first log w) (threads : first.threads = [])
    (turns : first.turns = []) (fair : ∀ a, permitted a → a.Fair) : InOrder log w := by
  have traced : ∀ {log w}, Records env permitted [] first log w → Traced env log w := fun run =>
    run.traced (.of_empty threads) fun a ha => (fair a ha).patient
  induction run with
  | start => exact inOrder_of_empty turns
  | tick run ih => exact ih.tick (traced run)
  | act run a ha ih => exact ih.act (traced run) (fair a ha)

end World
end ChatCommands
