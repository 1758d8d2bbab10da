import Mathlib
import ChatCommands.Proofs.CallTrails
import ChatCommands.Proofs.TrackerSettles

set_option autoImplicit false

/-!
# The world as a scene

In a run of the world dispatches are tasks among others: they share threads with
the callbacks that began them, wait, are cancelled, and unfold their requests.
All the same each run is one of concurrent calls, in which the cooldowns and the
clock are those of the world at every turn and the dispatch of each message that
was handed over ends as its thread does.
-/
namespace ChatCommands
variable {σ : Type} {env : Surroundings σ}

theorem Answers.serve {s s' : Shared σ} {r : EngineRequest σ} {x : r.Answer}
    (answered : Answers env s r x s') (tracked : ¬ r.Untracked) (given : (r : EngineRequest σ) → r.Answer) :
    s.tracker.serve env.dispatcher.clock (s.time env) given r = (x, s'.tracker) ∧
      s'.time env = s.time env := by
  cases answered with
  | claimRun c =>
    rw [Tracker.serve, Shared.claimRun, Shared.isBlocked]
    cases s.tracker.isBlocked (s.time env) c.name with
    | false => exact ⟨rfl, rfl⟩
    | true => cases s.tracker.isBusy c.name <;> exact ⟨rfl, rfl⟩
  | finish name => exact ⟨rfl, rfl⟩
  | record c =>
    rw [Tracker.serve, Shared.record]
    cases env.dispatcher.clock.fault? <;> exact ⟨rfl, rfl⟩
  | _ => exact absurd trivial tracked

theorem Answers.tracker_eq {s s' : Shared σ} {r : EngineRequest σ} {x : r.Answer}
    (answered : Answers env s r x s') (passive : r.Passive) : s'.tracker = s.tracker := by
  cases answered with
  | reset | claimRun c | finish name | record c => exact passive.elim
  | edit change =>
    simp only [Shared.tryEdit]
    split <;> rfl
  | _ => rfl

/-- What the thread goes on with fits the trail. -/
def ThreadState.Fits (root : Option Call) (js : Trail σ) : ThreadState σ → Prop
  | .running p => ChatCommands.Fits root js p
  | .waiting next => ∀ x, ChatCommands.Fits root js (next x)
  | .joining _ _ _ next => ∀ x, ChatCommands.Fits root js (next x)
  | .finished r => ∀ k, root = some k → ∃ o, r = .outcome o ∧ (k, .done o) ∈ js

theorem ThreadState.Fits.cancel {root : Option Call} {js : Trail σ} {st : ThreadState σ}
    (h : st.Fits root js) : st.cancel.1.Fits root js := by
  cases st with
  | waiting next => exact h (.error .cancelled)
  | _ => exact h

namespace World

/-- The scene shows the world: each thread goes on with the calls of its trail. -/
structure Shown (env : Surroundings σ) (root : Nat → Option Call) (trail : Nat → Trail σ) (w : World σ)
    (s : Scene Call σ) : Prop where
  tracker : s.tracker = w.shared.tracker
  now : s.now = w.shared.time env
  threads : ∀ i st, w.state? i = some st → st.Fits (root i) (trail i)
  numbered : ∀ i, Numbered i (trail i).keys
  calls : ∀ i, s.Shows (trail i)
  unmade : ∀ k : Call, k ∉ (trail k.thread).keys → s.calls k = env.dispatcher.process env.host k.message
  unborn : ∀ i, w.state? i = none → root i = none ∧ trail i = []

variable {root root' : Nat → Option Call} {trail : Nat → Trail σ} {w w' : World σ} {s s' : Scene Call σ}
  {i : Nat}

/-- Without having the cooldowns forgotten, the scene can be taken on until it shows the world. -/
def ShownAfter (env : Surroundings σ) (root : Nat → Option Call) (w : World σ) (s : Scene Call σ) : Prop :=
  ∃ os trail, s.Unreset env.dispatcher.clock os ∧ w.Shown env root trail (s.after env.dispatcher.clock os)

/-- The scene of a world in which nothing is dispatched yet. -/
def opening (env : Surroundings σ) (w : World σ) : Scene Call σ :=
  Scene.start env Call.message w.shared.tracker (w.shared.time env)

theorem shown_of_empty (threads : w.threads = []) :
    w.Shown env (fun _ => none) (fun _ => []) (w.opening env) where
  tracker := rfl
  now := rfl
  threads i st hs := by simp [state?_eq, threads] at hs
  numbered _ := trivial
  calls _ _ he := by cases he
  unmade _ _ := rfl
  unborn _ _ := ⟨rfl, rfl⟩

theorem state?_setState_of_ne {st : ThreadState σ} {j : Nat} (other : j ≠ i) :
    (w.setState i st).state? j = w.state? j := by
  simp [state?_setState, other.symm]

/-- One thread changes, and its trail with it. -/
theorem Shown.replace (h : w.Shown env root trail s) {js : Trail σ} (tracker : s'.tracker = w'.shared.tracker)
    (now : s'.now = w'.shared.time env) (roots : ∀ j, j ≠ i → root' j = root j) {st : ThreadState σ}
    (state : w'.state? i = some st) (fits : st.Fits (root' i) js)
    (others : ∀ j, j ≠ i → w'.state? j = w.state? j) (numbered : Numbered i js.keys)
    (kept : (trail i).keys ⊆ js.keys) (shows : s'.Shows js)
    (elsewhere : ∀ k, k ∉ js.keys → s'.calls k = s.calls k) :
    w'.Shown env root' (Function.update trail i js) s' := by
  have apart : ∀ k : Call, k.thread ≠ i → k ∉ js.keys := fun k other mem => other (numbered.mem mem).1
  refine ⟨tracker, now, fun j st' hs => ?_, fun j => ?_, fun j => ?_, fun k new => ?_, fun j none => ?_⟩
  · by_cases here : j = i
    · subst here
      obtain rfl : st = st' := Option.some.inj (state.symm.trans hs)
      rwa [Function.update_self]
    · rw [roots j here, Function.update_of_ne here]
      exact h.threads j st' (others j here ▸ hs)
  · by_cases here : j = i
    · subst here
      simpa using numbered
    · simpa [here] using h.numbered j
  · by_cases here : j = i
    · subst here
      simpa using shows
    · rw [Function.update_of_ne here]
      intro e he
      have other : e.1.thread ≠ i := by
        rw [((h.numbered j).mem (Trail.mem_keys he)).1]
        exact here
      rw [elsewhere _ (apart _ other)]
      exact h.calls j e he
  · by_cases here : k.thread = i
    · rw [here, Function.update_self] at new
      rw [elsewhere k new]
      exact h.unmade k fun old => new (kept (here ▸ old))
    · rw [Function.update_of_ne here] at new
      rw [elsewhere k (apart k here)]
      exact h.unmade k new
  · have other : j ≠ i := by
      rintro rfl
      cases none.symm.trans state
    rw [roots j other, Function.update_of_ne other]
    exact h.unborn j (others j other ▸ none)

/-- Threads may go on otherwise as long as they fit, and the clock may change. -/
theorem Shown.pass (h : w.Shown env root trail s) (tracker : w'.shared.tracker = w.shared.tracker)
    (threads : ∀ j st, w'.state? j = some st → st.Fits (root j) (trail j))
    (unborn : ∀ j, w'.state? j = none → w.state? j = none) :
    w'.Shown env root trail (s.next env.dispatcher.clock (.time (w'.shared.time env))) where
  tracker := h.tracker.trans tracker.symm
  now := rfl
  threads := threads
  numbered := h.numbered
  calls := h.calls
  unmade := h.unmade
  unborn j none := h.unborn j (unborn j none)

theorem Shown.idle (h : w.Shown env root trail s) (tracker : w'.shared.tracker = w.shared.tracker)
    (threads : ∀ j st, w'.state? j = some st → st.Fits (root j) (trail j))
    (unborn : ∀ j, w'.state? j = none → w.state? j = none) : w'.ShownAfter env root s :=
  ⟨[.time (w'.shared.time env)], trail, ⟨rfl, trivial⟩, h.pass tracker threads unborn⟩

theorem unborn_append {ts : List (Thread σ)} {turns : List Turn} {j : Nat}
    (h : { w with threads := w.threads ++ ts, turns := turns : World σ }.state? j = none) :
    w.state? j = none := by
  rw [state?_eq, Option.map_eq_none_iff, List.getElem?_eq_none_iff] at h ⊢
  simp only [List.length_append] at h
  omega

theorem unborn_setState {st : ThreadState σ} {j : Nat} (h : (w.setState i st).state? j = none) :
    w.state? j = none := by
  rw [state?_setState] at h
  split at h
  · simpa using h
  · exact h

theorem Shown.setState (h : w.Shown env root trail s) (st : ThreadState σ) (fits : st.Fits (root i) (trail i))
    {j : Nat} {st' : ThreadState σ} (hs : (w.setState i st).state? j = some st') :
    st'.Fits (root j) (trail j) := by
  rcases state?_setState_cases hs with ⟨rfl, rfl⟩ | ⟨-, old⟩
  · exact fits
  · exact h.threads j st' old

/-- Where a thread is running, its trail can be brought up to date. -/
theorem Shown.catch_up (h : w.Shown env root trail s) {p : Task σ} (state : w.state? i = some (.running p)) :
    ∃ os trail', s.Unreset env.dispatcher.clock os ∧
      w.Shown env root trail' (s.after env.dispatcher.clock os) ∧ Current (root i) (trail' i) p := by
  obtain ⟨os, js, keys, current, passes, shows⟩ := Scene.catch_up w.shared.host env.dispatcher.clock
    (h.threads i _ state) (h.calls i) (h.numbered i).nodup
  refine ⟨os, Function.update trail i js, passes.unreset, ?_, by simpa using current⟩
  exact h.replace (passes.tracker.trans h.tracker) (passes.now.trans h.now) (fun _ _ => rfl) state
    current.fits (fun _ _ => rfl) (keys ▸ h.numbered i) (keys ▸ List.Subset.refl _) shows
    fun k hk => passes.elsewhere k (keys ▸ hk)

/-- A running thread moves, and threads with code outside any dispatch may begin. -/
theorem Shown.go (h : w.Shown env root trail s) {p : Task σ} (state : w.state? i = some (.running p))
    (st : ThreadState σ) (fits : ∀ js, Current (root i) js p → st.Fits (root i) js)
    (tracker : w'.shared.tracker = w.shared.tracker)
    (threads : ∀ j st', w'.state? j = some st' → (w.setState i st).state? j = some st' ∨
      w.state? j = none ∧ ∃ q, st' = .running q ∧ Untracked q)
    (unborn : ∀ j, w'.state? j = none → w.state? j = none) : w'.ShownAfter env root s := by
  obtain ⟨os, trail', unreset, shown, current⟩ := h.catch_up state
  refine ⟨os ++ [.time (w'.shared.time env)], trail', Scene.unreset_append.2 ⟨unreset, rfl, trivial⟩, ?_⟩
  rw [Scene.after_append]
  refine shown.pass tracker (fun j st' hs => ?_) unborn
  rcases threads j st' hs with moved | ⟨new, q, rfl, untracked⟩
  · exact shown.setState st (fits _ current) moved
  · obtain ⟨plain, empty⟩ := shown.unborn j new
    rw [plain, empty]
    exact .free rfl untracked

/-- A running thread moves, and nothing else does. -/
theorem Shown.move (h : w.Shown env root trail s) {p : Task σ} (state : w.state? i = some (.running p))
    (st : ThreadState σ) (fits : ∀ js, Current (root i) js p → st.Fits (root i) js)
    (tracker : w'.shared.tracker = w.shared.tracker)
    (moved : ∀ j, w'.state? j = (w.setState i st).state? j) : w'.ShownAfter env root s :=
  h.go state st fits tracker (fun j _ hs => .inl (moved j ▸ hs))
    fun j none => unborn_setState (moved j ▸ none)

/-- A dispatch claims, records or finishes a run. -/
theorem Shown.track (h : w.Shown env root trail s) {r : EngineRequest σ} {next : r.Answer → Task σ}
    {x : r.Answer} {shared : Shared σ} (state : w.state? i = some (.running (.ask r next)))
    (answered : Answers env w.shared r x shared) (tracked : ¬ r.Untracked) :
    { w.setState i (.running (next x)) with shared }.ShownAfter env root s := by
  obtain ⟨os, trail, unreset, shown, current⟩ := h.catch_up state
  obtain ⟨before, k, more, after, split, fits⟩ := current.tracked tracked
  have shows := shown.calls i
  have numbered := shown.numbered i
  rw [split] at shows numbered
  let s₁ := s.after env.dispatcher.clock os
  -- what the surroundings would answer does not matter, since the cooldowns do
  let given : (r : EngineRequest σ) → r.Answer := EngineRequest.anyAnswer w.shared.host
  obtain ⟨served, still⟩ := answered.serve tracked given
  have here : s₁.calls k = .ask r more := shows (k, .ask r more) (by simp)
  have told : s₁.next env.dispatcher.clock (.step k given) =
      { s₁ with tracker := shared.tracker, calls := Function.update s₁.calls k (more x) } := by
    rw [Scene.next_of_ask here, shown.tracker, shown.now, served]
  refine ⟨os ++ [.step k given], Function.update trail i (before ++ (k, more x) :: after),
    Scene.unreset_append.2 ⟨unreset, ?_, trivial⟩, ?_⟩
  · refine Scene.resets_of_ask here ?_
    rintro rfl
    exact tracked trivial
  rw [Scene.after_append, Scene.after_cons, Scene.after_nil, told]
  refine shown.replace rfl (shown.now.trans still.symm) (fun _ _ => rfl) (state?_setState_self state) (fits x)
    (fun _ other => state?_setState_of_ne other) (Trail.keys_middle .. ▸ numbered) ?_
    (shows.update numbered.nodup rfl) fun k' other => Function.update_of_ne ?_ _ _
  · rw [split, Trail.keys_middle _ _ _ _ (more x)]
    exact List.Subset.refl _
  · rintro rfl
    exact other (by simp [Trail.keys])

/-- A dispatch begins. -/
theorem Shown.dispatch (h : w.Shown env root trail s) {m : Message} {next : Except Fault Outcome → Task σ}
    (state : w.state? i = some (.running (.ask (.effect (.dispatch m)) next))) :
    (w.setState i (.running ((env.dispatcher.process env.host m).bind next))).ShownAfter env root s := by
  obtain ⟨os, trail, unreset, shown, current⟩ := h.catch_up state
  have numbered := shown.numbered i
  let k : Call := ⟨i, (trail i).keys.length, m⟩
  have fresh : k ∉ (trail i).keys := fun old => (numbered.mem old).2.false
  have made : (s.after env.dispatcher.clock os).calls k = env.dispatcher.process env.host m :=
    shown.unmade k fresh
  refine ⟨os, Function.update trail i ((k, env.dispatcher.process env.host m) :: trail i), unreset, ?_⟩
  exact shown.replace shown.tracker shown.now (fun _ _ => rfl) (state?_setState_self state)
    (.active fun r => .returned (current.answered trivial r)) (fun _ other => state?_setState_of_ne other)
    ⟨rfl, rfl, numbered⟩ (List.subset_cons_self ..) (List.forall_mem_cons.2 ⟨made, shown.calls i⟩)
    fun _ _ => rfl

/-- After a turn that does not have the cooldowns forgotten, the scene still shows the world. -/
theorem Shown.tick (h : w.Shown env root trail s) (kept : w.nextEntry env ≠ some .forgotten) :
    (w.tick env).ShownAfter env root s := by
  have ticked := tick_ticked env w
  generalize w.tick env = w' at ticked
  cases ticked with
  | rest turns => exact h.idle rfl h.threads fun _ => id
  | dropStep turns idle => exact h.idle rfl h.threads fun _ => id
  | dropReport turns idle => exact h.idle rfl h.threads fun _ => id
  | @answer i rest r next x shared turns state answered =>
    have asked : r ≠ .effect .resetCooldowns := by
      rintro rfl
      exact kept (nextEntry_step turns state)
    -- only a request about runs is a step of the scene at once;
    -- a dispatch is told other answers when it next moves
    rcases EngineRequest.passive_or asked with passive | tracked
    · exact h.move state (.running (next x)) (fun js current => current.answered passive x)
        (answered.tracker_eq passive) fun _ => rfl
    · exact h.track state answered tracked
  | @expand i rest r next p turns state expands =>
    cases expands with
    | dispatch m => exact h.dispatch state
    | emit event arguments options =>
      exact h.move state (.running _) (fun js current => current.unfold trivial (Event.untracked_emit ..))
        rfl fun _ => rfl
    | sweep phase event index context =>
      exact h.move state (.running _)
        (fun js current => current.unfold trivial (Event.untracked_sweepFrom ..)) rfl fun _ => rfl
  | @wait i rest next turns state =>
    exact h.move state (.waiting next) (fun js current x => current.answered trivial x) rfl fun _ => rfl
  | @notifyNone i rest listeners arguments options next turns state none =>
    exact h.move state (.running (next (.ok []))) (fun js current => current.answered trivial (.ok [])) rfl
      fun _ => rfl
  | @spawn i rest t listeners arguments options next turns thread state some =>
    have hs : w.state? i = Option.some (.running (.ask (.notify listeners arguments options) next)) :=
      state ▸ state?_of_thread thread
    let children := List.range' w.threads.length (listenerTasks env listeners arguments options).length
    refine h.go hs (.joining children children.length false next)
      (fun js current x => current.answered trivial x) rfl (fun j st' hj => ?_)
      fun _ none => unborn_setState (unborn_append none)
    rcases state?_append hj with old | ⟨new, t, ht, rfl⟩
    · exact .inl old
    · obtain ⟨p, hp, rfl⟩ := List.mem_map.1 ht
      obtain ⟨k, -, rfl⟩ := List.mem_map.1 hp
      refine .inr ⟨state?_eq_none_iff.2 (by simpa using new), _, rfl, ?_⟩
      exact (Engine.within_runScript (Script.within_all _)).untracked.bind fun _ => trivial
  | @stop i rest t r turns thread state =>
    have hs : w.state? i = some (.running (.done r)) := state ▸ state?_of_thread thread
    exact h.move hs (.finished r) (fun js current k mine => current.result mine) rfl fun _ => rfl
  | @join i rest children cancelled next turns state =>
    have fits := h.threads i _ state
    exact h.idle rfl (fun _ _ hs => h.setState (.running _) (fits _) hs) fun _ none => unborn_setState none
  | @hear i parent rest t children missing cancelled next turns thread isChild state =>
    have fits := h.threads parent _ state
    exact h.idle rfl (fun _ _ hs => h.setState (.joining children missing cancelled next) fits hs)
      fun _ none => unborn_setState none

/-- A message is handed over, and the thread that is started for it begins its dispatch. -/
theorem Shown.receive (h : w.Shown env root trail s) (m : Message) :
    (w.act env (.receive m)).ShownAfter env
      (Function.update root w.threads.length (some ⟨w.threads.length, 0, m⟩)) s := by
  have new : w.state? w.threads.length = none := state?_eq_none_iff.2 le_rfl
  obtain ⟨-, empty⟩ := h.unborn _ new
  let k : Call := ⟨w.threads.length, 0, m⟩
  have made : s.calls k = env.dispatcher.process env.host m := h.unmade k (by simp [k, empty, Trail.keys])
  refine ⟨[], Function.update trail w.threads.length [(k, env.dispatcher.process env.host m)], trivial, ?_⟩
  have born : (w.act env (.receive m)).state? w.threads.length =
      some (.running ((env.dispatcher.process env.host m).bind fun r => .done (.outcome r))) := by
    simp [World.act, World.start, state?_eq]
  refine h.replace h.tracker h.now (fun j other => Function.update_of_ne other _ _) born ?_
    (fun j other => ?_) ⟨rfl, rfl, trivial⟩ (by simp [empty, Trail.keys])
    (by simpa [Scene.Shows] using made) fun _ _ => rfl
  · rw [Function.update_self]
    exact .active fun r => .ended rfl
  · rw [state?_eq, state?_eq]
    congr 1
    simp only [World.act, World.start, List.getElem?_append]
    split
    · rfl
    · rw [List.getElem?_eq_none (by simp; omega), List.getElem?_eq_none (by omega)]

/-- After an act of the host the scene still shows the world. -/
theorem Shown.act (h : w.Shown env root trail s) (a : Act σ) : ∃ root', (w.act env a).ShownAfter env root' s ∧
    (∀ j k, root j = some k → root' j = some k) ∧
    ∀ m, a = .receive m → root' w.threads.length = some ⟨w.threads.length, 0, m⟩ := by
  have idle (threads : ∀ j st, (w.act env a).state? j = some st → st.Fits (root j) (trail j))
      (unborn : ∀ j, (w.act env a).state? j = none → w.state? j = none) (other : ∀ m, a ≠ .receive m) :
      ∃ root', (w.act env a).ShownAfter env root' s ∧ (∀ j k, root j = some k → root' j = some k) ∧
        ∀ m, a = .receive m → root' w.threads.length = some ⟨w.threads.length, 0, m⟩ :=
    ⟨root, h.idle (act_tracker w a) threads unborn, fun _ _ => id, fun m same => absurd same (other m)⟩
  cases a with
  | receive m =>
    refine ⟨_, h.receive m, fun j k mine => ?_, ?_⟩
    · have other : j ≠ w.threads.length := by
        rintro rfl
        cases (h.unborn _ (state?_eq_none_iff.2 le_rfl)).1.symm.trans mine
      rwa [Function.update_of_ne other]
    · rintro _ ⟨⟩
      exact Function.update_self ..
  | perform script =>
    refine idle (fun j st hs => ?_) (fun j none => unborn_append none) (by simp)
    rcases state?_append hs with old | ⟨hj, t, ht, rfl⟩
    · exact h.threads j st old
    · obtain ⟨plain, empty⟩ := h.unborn j (state?_eq_none_iff.2 hj)
      obtain rfl := List.mem_singleton.1 ht
      rw [plain, empty]
      exact .free rfl ((Engine.within_runScript (Script.within_all _)).untracked.bind fun _ => trivial)
  | answer i x =>
    cases state : w.state? i with
    | none => exact idle (by simpa [World.act, state] using h.threads) (by simp [World.act, state]) (by simp)
    | some st =>
      cases st with
      | waiting next =>
        have moved : ∀ j,
            (w.act env (.answer i x)).state? j = (w.setState i (.running (next x))).state? j := by
          intro j
          simp only [World.act, state]
          rfl
        exact idle (fun j st hs => h.setState (.running (next x)) (h.threads i _ state x) (moved j ▸ hs))
          (fun j none => unborn_setState (moved j ▸ none)) (by simp)
      | _ => exact idle (by simpa [World.act, state] using h.threads) (by simp [World.act, state]) (by simp)
  | cancel i =>
    refine idle (fun j st hs => ?_) (fun j none => ?_) (by simp)
    · rw [state?_eq, Option.map_eq_some_iff] at hs
      obtain ⟨t, ht, rfl⟩ := hs
      simp only [World.act, World.cancel, List.getElem?_map, Option.map_eq_some_iff] at ht
      obtain ⟨t', ht', rfl⟩ := ht
      have before := h.threads j _ (state?_of_thread ht')
      split
      · exact before.cancel
      · exact before
    · rw [state?_eq_none_iff] at none ⊢
      simpa [World.act, World.cancel] using none
  | arrange turns =>
    have same : ∀ j, (w.act env (.arrange turns)).state? j = w.state? j := by
      intro j
      simp only [World.act]
      split <;> rfl
    exact idle (fun j st hs => h.threads j st (same j ▸ hs)) (fun j none => same j ▸ none) (by simp)
  | adjust change => exact idle h.threads (fun _ => id) (by simp)

/-- A thread that was started for a message ends with the result of its dispatch. -/
theorem Shown.result (h : w.Shown env root trail s) {k : Call} (mine : root i = some k) {r : Finish}
    (finished : w.finish? i = some r) : ∃ o, r = .outcome o ∧ s.calls k = .done o := by
  obtain ⟨o, rfl, mem⟩ := h.threads i _ (state?_of_finish? finished) k mine
  exact ⟨o, rfl, h.calls i _ mem⟩

end World
end ChatCommands
