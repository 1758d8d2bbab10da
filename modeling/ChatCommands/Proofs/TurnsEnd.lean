import Mathlib
import ChatCommands.Proofs.EndingPrograms
import ChatCommands.Proofs.WorldRest

set_option autoImplicit false

/-!
# Turns come to an end

If all that threads do ends, then so many turns later no turn is due. A turn
either is dropped, or it puts states that come later into the place of the state
of one thread; so that the states of all threads descend as a multiset.
-/
namespace ChatCommands
variable {σ α : Type}

theorem Expands.allows {env : Surroundings σ} {r : EngineRequest σ} {p : Engine σ r.Answer}
    (h : Expands env r p) (count : Nat) (x : r.Answer) : r.Allows count x := by
  cases h <;> trivial

theorem Answers.allows {env : Surroundings σ} {s s' : Shared σ} {r : EngineRequest σ} {x : r.Answer}
    (h : Answers env s r x s') {count : Nat} (le : s.subscribers.middleware.length ≤ count) :
    r.Allows count x := by
  cases h with
  | middlewareAt index => exact fun past => List.getElem?_eq_none (le.trans past)
  | _ => trivial

theorem Answers.subscribers {env : Surroundings σ} {s s' : Shared σ} {r : EngineRequest σ}
    {x : r.Answer} (h : Answers env s r x s') (steady : r.Steady) : s'.subscribers = s.subscribers := by
  cases h with
  | edit change => exact steady.elim
  | claimRun c =>
    unfold Shared.claimRun
    split
    · dsimp only
      split <;> rfl
    · rfl
  | record c =>
    unfold Shared.record
    split <;> rfl
  | _ => rfl

namespace ThreadState

def Steady : ThreadState σ → Prop
  | .running (.ask r _) => r.Steady
  | _ => True

/-- A thread in the first state may come into the second one, or start one in it, while there are so
many middleware. -/
inductive Leads (env : Surroundings σ) (count : Nat) : ThreadState σ → ThreadState σ → Prop where
  | answer {r : EngineRequest σ} {next : r.Answer → Task σ} {x : r.Answer} (h : r.Allows count x) :
      Leads env count (.running (.ask r next)) (.running (next x))
  | expand {r : EngineRequest σ} {next : r.Answer → Task σ} {p : Engine σ r.Answer}
      (h : Expands env r p) : Leads env count (.running (.ask r next)) (.running (p.bind next))
  | begin {r : EngineRequest σ} {next : r.Answer → Task σ} {p : Engine σ (Except Fault Value)}
      (h : p ∈ r.tasks env) : Leads env count (.running (.ask r next))
        (.running (p.bind fun r => .done (.value r)))
  | wait {next : Except Fault Value → Task σ} :
      Leads env count (.running (.ask (.effect .wait) next)) (.waiting next)
  | resume {next : Except Fault Value → Task σ} (x : Except Fault Value) :
      Leads env count (.waiting next) (.running (next x))
  | spawn {hooks : List Hook} {arguments : List Value} {options : Assoc Value}
      {next : Except Fault (List (Except Fault Value)) → Task σ} (children : List Nat) (missing : Nat) :
      Leads env count (.running (.ask (.notify hooks arguments options) next))
        (.joining children missing false next)
  | hear {children : List Nat} {missing : Nat} {cancelled : Bool}
      {next : Except Fault (List (Except Fault Value)) → Task σ} :
      Leads env count (.joining children (missing + 1) cancelled next)
        (.joining children missing cancelled next)
  | join {children : List Nat} {cancelled : Bool}
      {next : Except Fault (List (Except Fault Value)) → Task σ}
      (x : Except Fault (List (Except Fault Value))) :
      Leads env count (.joining children 0 cancelled next) (.running (next x))
  | stop (r : Finish) : Leads env count (.running (.done r)) (.finished r)

/-- All that the thread does ends. -/
inductive Winds (env : Surroundings σ) (count : Nat) : ThreadState σ → Prop where
  | intro {st : ThreadState σ} (steady : st.Steady)
      (leads : ∀ st', Leads env count st st' → Winds env count st') : Winds env count st

variable {env : Surroundings σ} {count count' : Nat}

theorem winds_done (r : Finish) : Winds env count (.running (.done r)) := by
  refine .intro trivial ?_
  intro st' leads
  cases leads
  exact .intro trivial fun _ leads => by cases leads

theorem winds_joining {children : List Nat} {cancelled : Bool}
    {next : Except Fault (List (Except Fault Value)) → Task σ}
    (h : ∀ x, Winds env count (.running (next x))) (missing : Nat) :
    Winds env count (.joining children missing cancelled next) := by
  induction missing with
  | zero =>
    refine .intro trivial ?_
    intro st' leads
    cases leads
    exact h _
  | succ missing ih =>
    refine .intro trivial ?_
    intro st' leads
    cases leads
    exact ih

theorem winds_of_ends {p : Engine σ α} (ends : p.Ends env count) {f : α → Task σ}
    (h : ∀ a, Winds env count (.running (f a))) : Winds env count (.running (p.bind f)) := by
  induction ends with
  | done a => exact h a
  | ask steady _ _ _ expansions tasks answers =>
    refine .intro steady ?_
    intro st' leads
    cases leads with
    | answer allowed => exact answers _ allowed h
    | expand expands => exact expansions _ expands fun x => answers x (expands.allows count x) h
    | begin started => exact tasks _ started fun r => winds_done _
    | wait =>
      refine .intro trivial ?_
      intro st' leads
      cases leads with
      | resume x => exact answers x trivial h
    | spawn children missing => exact winds_joining (fun x => answers x trivial h) missing

theorem Leads.mono {st st' : ThreadState σ} (h : Leads env count' st st') (le : count' ≤ count) :
    Leads env count st st' := by
  cases h with
  | @answer r next x allowed =>
    refine .answer ?_
    cases r with
    | middlewareAt index => exact fun past => allowed (le.trans past)
    | _ => trivial
  | expand h => exact .expand h
  | begin h => exact .begin h
  | wait => exact .wait
  | resume x => exact .resume x
  | spawn children missing => exact .spawn children missing
  | hear => exact .hear
  | join x => exact .join x
  | stop r => exact .stop r

/-- Of fewer middleware less can come. -/
theorem Winds.anti {st : ThreadState σ} (h : Winds env count st) (le : count' ≤ count) :
    Winds env count' st := by
  induction h with
  | intro steady _ ih => exact .intro steady fun st' leads => ih st' (leads.mono le)

theorem Winds.cancel {st : ThreadState σ} (winds : Winds env count st) :
    Winds env count st.cancel.1 := by
  cases st with
  | waiting next =>
    cases winds with
    | intro _ ends => exact ends _ (.resume _)
  | joining children missing cancelled next =>
    refine winds_joining (fun x => ?_) missing
    induction missing with
    | zero =>
      cases winds with
      | intro _ ends => exact ends _ (.join x)
    | succ missing ih =>
      cases winds with
      | intro _ ends => exact ih (ends _ .hear)
  | running p | finished r => exact winds

/-- The first state comes later than the second one, from which on all ends. -/
def Later (env : Surroundings σ) (count : Nat) (st' st : ThreadState σ) : Prop :=
  Winds env count st ∧ Leads env count st st'

theorem later_wellFounded (env : Surroundings σ) (count : Nat) : WellFounded (Later env count) := by
  refine ⟨fun st => ?_⟩
  by_cases winds : Winds env count st
  · induction winds with
    | intro _ _ ih => exact ⟨_, fun st' later => ih st' later.2⟩
  · exact ⟨_, fun st' later => absurd later.1 winds⟩

end ThreadState

/-- The host starts nothing that does not end. -/
def Act.Ends (env : Surroundings σ) : Act σ → Prop
  | .perform script => Script.Within (Effect.Ends env) script
  | _ => True

namespace World
open ThreadState Engine
variable {env : Surroundings σ} {w w' : World σ}

def states (w : World σ) : Multiset (ThreadState σ) := (w.threads.map (·.state) : List (ThreadState σ))

def middlewareCount (w : World σ) : Nat := w.shared.subscribers.middleware.length

/-- A turn is dropped, or the state of one thread gives way to states that it leads to. -/
inductive Advances (env : Surroundings σ) (w w' : World σ) : Prop where
  | drop (same : w'.states = w.states) (fewer : w'.turns.length < w.turns.length)
  | lead {st : ThreadState σ} {others after : Multiset (ThreadState σ)}
      (before : w.states = others + {st}) (now : w'.states = others + after)
      (leads : ∀ count, w.middlewareCount ≤ count → ∀ st' ∈ after, Leads env count st st')

/-- What comes next: a turn that is due is taken, or the host goes on with a thread that waits for it. -/
inductive Next (env : Surroundings σ) (permitted : Act σ → Prop) (w : World σ) : World σ → Prop where
  | turn (due : w.turns ≠ []) : Next env permitted w (w.tick env)
  | answer {i : Nat} {next : Except Fault Value → Task σ} (state : w.state? i = some (.waiting next))
      (x : Except Fault Value) (h : permitted (.answer i x)) :
      Next env permitted w (w.act env (.answer i x))

/-- Whatever comes next, again and again, leads to such a world. -/
inductive Inevitable (env : Surroundings σ) (permitted : Act σ → Prop) (P : World σ → Prop) :
    World σ → Prop where
  | now {w : World σ} (h : P w) : Inevitable env permitted P w
  | later {w : World σ} (some : ∃ w', Next env permitted w w')
      (all : ∀ w', Next env permitted w w' → Inevitable env permitted P w') :
      Inevitable env permitted P w

/-- All that the threads do ends. -/
def Winding (env : Surroundings σ) (w : World σ) : Prop :=
  ∀ st ∈ w.states, ∀ count, Winds env count st

theorem mem_states {i : Nat} {st : ThreadState σ} (h : w.state? i = some st) : st ∈ w.states := by
  obtain ⟨t, ht, rfl⟩ := exists_thread h
  exact Multiset.mem_coe.2 (List.mem_map_of_mem (List.mem_of_getElem? ht))

theorem states_setState {i : Nat} {st : ThreadState σ} (h : w.state? i = some st)
    (st' : ThreadState σ) :
    ∃ others, w.states = others + {st} ∧ (w.setState i st').states = others + {st'} := by
  obtain ⟨t, ht, rfl⟩ := exists_thread h
  obtain ⟨before, here, behind, split, rfl, modified⟩ := List.exists_of_modify
    (fun t : Thread σ => { t with state := st' }) (List.getElem?_eq_some_iff.1 ht).1
  obtain rfl : here = t := by simpa [split] using ht
  refine ⟨((before ++ behind).map (·.state) : List (ThreadState σ)), ?_, ?_⟩
  · rw [states, split, add_comm]
    simp [Multiset.singleton_add]
  · rw [states, setState, modified, add_comm]
    simp [Multiset.singleton_add]

theorem Advances.setState {i : Nat} {st st' : ThreadState σ} (state : w.state? i = some st)
    (same : w'.threads = (w.setState i st').threads)
    (leads : ∀ count, w.middlewareCount ≤ count → Leads env count st st') : Advances env w w' := by
  obtain ⟨others, before, now⟩ := states_setState state st'
  have : w'.states = (w.setState i st').states := by rw [states, states, same]
  refine .lead before (this.trans now) ?_
  intro count le st'' mem
  cases Multiset.mem_singleton.1 mem
  exact leads count le

theorem Advances.spawn {i root : Nat} {rest : List Turn} {listeners : List Hook}
    {arguments : List Value} {options : Assoc Value} {tasks : List (Engine σ (Except Fault Value))}
    {next : Except Fault (List (Except Fault Value)) → Task σ}
    (state : w.state? i = some (.running (.ask (.notify listeners arguments options) next)))
    (calls : tasks = listenerTasks env listeners arguments options) :
    Advances env w ({ w with turns := rest }.spawn i root tasks next) := by
  obtain ⟨others, before, now⟩ := states_setState state (.joining
    (List.range' w.threads.length tasks.length) tasks.length false next)
  have started : ({ w with turns := rest }.spawn i root tasks next).states =
      (w.setState i (.joining (List.range' w.threads.length tasks.length) tasks.length false
        next)).states + (tasks.map fun t => .running (t.bind fun r => .done (.value r)) :
          List (ThreadState σ)) := by
    simp [states, World.spawn, World.setState, Function.comp_def]
  rw [now, add_assoc] at started
  refine .lead before started ?_
  intro count _ st' mem
  rcases Multiset.mem_add.1 mem with joins | begins
  · cases Multiset.mem_singleton.1 joins
    exact .spawn _ _
  · obtain ⟨p, hp, rfl⟩ := List.mem_map.1 (Multiset.mem_coe.1 begins)
    subst calls
    exact .begin hp

theorem tick_advances (due : w.turns ≠ []) : Advances env w (w.tick env) := by
  have ticked := tick_ticked env w
  generalize w.tick env = w' at ticked
  cases ticked with
  | rest h => exact absurd h due
  | dropStep h | dropReport h => exact .drop rfl (by simp [h])
  | @answer i rest r next x s h state answered =>
    exact .setState state rfl fun count le => .answer (answered.allows le)
  | expand h state expands => exact .setState state rfl fun _ _ => .expand expands
  | wait h state => exact .setState state rfl fun _ _ => .wait
  | notifyNone h state => exact .setState state rfl fun _ _ => .answer trivial
  | spawn h thread state => exact .spawn ((state?_of_thread thread).trans (congrArg some state)) rfl
  | stop h thread state =>
    exact .setState ((state?_of_thread thread).trans (congrArg some state)) rfl fun _ _ => .stop _
  | join h state => exact .setState state rfl fun _ _ => .join _
  | hear h thread isChild state => exact .setState state rfl fun _ _ => .hear

theorem Next.advances {permitted : Act σ → Prop} (next : Next env permitted w w') :
    Advances env w w' := by
  cases next with
  | turn due => exact tick_advances due
  | answer state x h =>
    simp only [act, state]
    exact .setState state rfl fun _ _ => .resume x

/-- What the threads do while all of it ends does not change how many middleware there are. -/
theorem Winding.middlewareCount_tick (winding : w.Winding env) :
    (w.tick env).middlewareCount = w.middlewareCount := by
  have ticked := tick_ticked env w
  generalize w.tick env = w' at ticked
  cases ticked with
  | @answer i rest r next x s h state answered =>
    cases winding _ (mem_states state) 0 with
    | intro steady leads => exact congrArg (·.middleware.length) (answered.subscribers steady)
  | _ => rfl

theorem Winding.advances (winding : w.Winding env) (advances : Advances env w w') :
    w'.Winding env := by
  cases advances with
  | drop same fewer => exact fun st mem => winding st (same ▸ mem)
  | @lead st others after before now leads =>
    intro st' mem count
    rw [now] at mem
    rcases Multiset.mem_add.1 mem with other | new
    · exact winding st' (before ▸ Multiset.mem_add.2 (.inl other)) count
    · have winds := winding st (by simp [before]) (max count w.middlewareCount)
      cases winds with
      | intro steady ends =>
        exact (ends st' (leads _ (le_max_right _ _) st' new)).anti (le_max_left _ _)

theorem Winding.next {permitted : Act σ → Prop} (winding : w.Winding env)
    (next : Next env permitted w w') :
    w'.Winding env ∧ w'.middlewareCount = w.middlewareCount := by
  refine ⟨winding.advances next.advances, ?_⟩
  cases next with
  | turn due => exact winding.middlewareCount_tick
  | answer state x h => simp only [act, state]; rfl

/-- The states of the threads descend, or they stay and fewer turns are due. -/
def Descends (env : Surroundings σ) (count : Nat) :
    Multiset (ThreadState σ) × Nat → Multiset (ThreadState σ) × Nat → Prop :=
  Prod.Lex (Relation.CutExpand (Later env count)) (· < ·)

theorem descends_wellFounded (env : Surroundings σ) (count : Nat) :
    WellFounded (Descends env count) :=
  WellFounded.prod_lex (later_wellFounded env count).cutExpand wellFounded_lt

theorem Winding.descends (winding : w.Winding env) (advances : Advances env w w') :
    Descends env w.middlewareCount (w'.states, w'.turns.length) (w.states, w.turns.length) := by
  cases advances with
  | drop same fewer =>
    rw [same]
    exact .right _ fewer
  | @lead st others after before now leads =>
    refine .left _ _ ?_
    rw [before, now]
    refine (Relation.cutExpand_add_left others).2 (Relation.cutExpand_singleton fun st' mem => ?_)
    exact ⟨winding st (by simp [before]) _, leads _ le_rfl st' mem⟩

theorem winding_of_empty (h : w.threads = []) : w.Winding env := by
  simp [Winding, states, h]

theorem Winding.start (winding : w.Winding env) {p : Task σ} (ends : ∀ count, p.Ends env count) :
    (w.start p).1.Winding env := by
  intro st mem count
  simp only [states, World.start, List.map_append, Multiset.mem_coe, List.mem_append] at mem
  rcases mem with old | new
  · exact winding st (Multiset.mem_coe.2 old) count
  · rw [List.mem_singleton.1 new, ← Program.bind_done p]
    exact winds_of_ends (ends count) winds_done

theorem Winding.act (callbacks : CallbacksEnd env) (winding : w.Winding env) {a : Act σ}
    (ha : a.Ends env) : (w.act env a).Winding env := by
  cases a with
  | receive m =>
    exact winding.start fun count => (Dispatcher.ends_process callbacks _ m).bind fun r => .done _
  | perform script => exact winding.start fun count => (within_runScript ha).ends.bind fun r => .done _
  | answer i x =>
    simp only [World.act]
    split
    case h_1 next state => exact winding.advances (.setState state rfl fun _ _ => .resume x)
    case h_2 => exact winding
  | cancel root =>
    intro st mem count
    obtain ⟨_, cancelled, rfl⟩ := List.mem_map.1 (Multiset.mem_coe.1 mem)
    obtain ⟨t, ht, rfl⟩ := List.mem_map.1 cancelled
    have winds := winding t.state (Multiset.mem_coe.2 (List.mem_map_of_mem ht)) count
    split
    · exact winds.cancel
    · exact winds
  | arrange turns =>
    simp only [World.act]
    split <;> exact winding
  | adjust change => exact winding

theorem Reaches.winding {permitted : Act σ → Prop} (callbacks : CallbacksEnd env)
    (acts : ∀ a, permitted a → a.Ends env) {first : World σ} (start : first.Winding env)
    {h : List Entry} (run : Reaches env permitted first h w) : w.Winding env := by
  induction run with
  | start => exact start
  | @tick h w run ih =>
    by_cases due : w.turns = []
    · simpa [World.tick, due] using ih
    · exact ih.advances (tick_advances due)
  | act run a ha ih => exact ih.act callbacks (acts a ha)

/-- Worlds in which all that the threads do ends cannot go on for ever. -/
theorem Winding.inevitable {permitted : Act σ → Prop} {P : World σ → Prop} (winding : w.Winding env)
    (invariant : World σ → Prop) (holds : invariant w)
    (kept : ∀ w w', invariant w → Next env permitted w w' → invariant w')
    (progress : ∀ w, invariant w → P w ∨ ∃ w', Next env permitted w w') :
    Inevitable env permitted P w := by
  suffices ∀ m count, ∀ w : World σ, (w.states, w.turns.length) = m → w.middlewareCount = count →
      w.Winding env → invariant w → Inevitable env permitted P w from
    this _ _ w rfl rfl winding holds
  -- the number of middleware stays, so that it can bound the answers once and for all
  intro m count
  induction m using (descends_wellFounded env count).induction with
  | h m ih =>
    rintro w rfl rfl winding holds
    rcases progress w holds with there | some
    · exact .now there
    · refine .later some ?_
      intro w' next
      obtain ⟨winding', same⟩ := winding.next next
      exact ih _ (winding.descends next.advances) w' rfl same winding' (kept w w' holds next)

theorem Reaches.next {permitted : Act σ → Prop} {first : World σ} {h : List Entry}
    (run : Reaches env permitted first h w) (next : Next env permitted w w') :
    ∃ h', Reaches env permitted first h' w' ∧ h ⊆ h' := by
  cases next with
  | turn due => exact ⟨_, run.tick, List.subset_append_right _ _⟩
  | answer state x permits => exact ⟨_, run.act _ permits, List.subset_append_right _ _⟩

theorem exists_waiting {root : Nat} {waiting : Nat × (Except Fault Value → Task σ)}
    (h : w.waitingFor? root = some waiting) : ∃ i next, w.state? i = some (.waiting next) := by
  obtain ⟨⟨t, i⟩, mem, found⟩ := List.exists_of_findSome?_eq_some h
  have ht : w.threads[i]? = some t := List.mem_zipIdx_iff_getElem?.1 mem
  dsimp only at found
  split at found
  case h_1 next state => exact ⟨i, next, (state?_of_thread ht).trans (congrArg some state)⟩
  case h_2 => cases found

/-- However the host answers, the thread that was started for a message ends. -/
theorem Reaches.inevitable {permitted : Act σ → Prop} (callbacks : CallbacksEnd env)
    (acts : ∀ a, permitted a → a.Ends env) (answerable : ∀ i, ∃ x, permitted (.answer i x))
    {first : World σ} (start : first.threads = []) {h : List Entry}
    (run : Reaches env permitted first h w) {i : Nat} (received : .received i ∈ h)
    {P : World σ → Prop} (enough : ∀ {h w}, Reaches env permitted first h w → .received i ∈ h →
      ∀ r, w.finish? i = some r → P w) : Inevitable env permitted P w := by
  refine (run.winding callbacks acts (winding_of_empty start)).inevitable
    (fun w => ∃ h, Reaches env permitted first h w ∧ .received i ∈ h) ⟨h, run, received⟩ ?_ ?_
  · rintro w w' ⟨h, run, received⟩ next
    obtain ⟨h', run', older⟩ := run.next next
    exact ⟨h', run', older received⟩
  · rintro w ⟨h, run, received⟩
    obtain ⟨r, finished⟩ | ⟨turn, due, -⟩ | ⟨waiting, waits⟩ :=
      (run.attended (attended_of_empty start)).goes_on (run.root? received)
    · exact .inl (enough run received r finished)
    · exact .inr ⟨_, .turn (List.ne_nil_of_mem due)⟩
    · obtain ⟨j, next, state⟩ := exists_waiting waits
      obtain ⟨x, permits⟩ := answerable j
      exact .inr ⟨_, .answer state x permits⟩

end World
end ChatCommands
