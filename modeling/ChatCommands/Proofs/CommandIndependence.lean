import Mathlib
import ChatCommands.Proofs.WorldScene

set_option autoImplicit false

/-!
# Commands do not interfere

Each run of the world in which the cooldowns are never to be forgotten comes with
the steps that its dispatches take. Those of the dispatches of one command make a
run of their own: the results of these dispatches are the same in it, and so are
the runs of the command that are under way and the last one that was completed.
-/
namespace ChatCommands
variable {σ : Type} {env : Surroundings σ}

namespace World
variable {first w : World σ} {root : Nat → Option Call} {trail : Nat → Trail σ} {s : Scene Call σ}

theorem follow_append (acts more : List (Option (Act σ))) (log : List (Moment σ)) (w : World σ) :
    follow env (acts ++ more) log w =
      follow env more (follow env acts log w).1 (follow env acts log w).2 := by
  induction acts generalizing log w with
  | nil => rfl
  | cons a acts ih => cases a <;> exact ih _ _

/-- The world after these acts of a run; nothing stands for a turn. -/
abbrev reached (env : Surroundings σ) (first : World σ) (acts : List (Option (Act σ))) : World σ :=
  (follow env acts [] first).2

/-- The scene tells the cooldowns and the clock of the world after these acts, and the results of the
messages that were handed over. -/
structure Mirrored (env : Surroundings σ) (first : World σ) (acts : List (Option (Act σ)))
    (s : Scene Call σ) : Prop where
  tracker : s.tracker = (reached env first acts).shared.tracker
  now : s.now = (reached env first acts).shared.time env
  results : ∀ l m, acts[l]? = some (some (.receive m)) →
    ∀ i, i = (reached env first (acts.take l)).threads.length →
    ∀ r, (reached env first acts).finish? i = some r → ∃ o, r = .outcome o ∧ s.calls ⟨i, 0, m⟩ = .done o

/-- Each message that was handed over is the root of the thread that was started for it. -/
def Rooted (env : Surroundings σ) (first : World σ) (acts : List (Option (Act σ)))
    (root : Nat → Option Call) : Prop :=
  ∀ l m, acts[l]? = some (some (.receive m)) → ∀ i, i = (reached env first (acts.take l)).threads.length →
    root i = some ⟨i, 0, m⟩

theorem Shown.mirrored {acts : List (Option (Act σ))} (h : (reached env first acts).Shown env root trail s)
    (rooted : Rooted env first acts root) : Mirrored env first acts s where
  tracker := h.tracker
  now := h.now
  results l m received i number _ finished := h.result (rooted l m received i number) finished

theorem Shown.follow (h : w.Shown env root trail s) (a : Option (Act σ)) {log : List (Moment σ)}
    (kept : .forgotten ∉ entries env (World.follow env [a] log w).1) :
    ∃ root', (World.follow env [a] log w).2.ShownAfter env root' s ∧
      (∀ j k, root j = some k → root' j = some k) ∧
      ∀ m, a = some (.receive m) → root' w.threads.length = some ⟨w.threads.length, 0, m⟩ := by
  cases a with
  | none =>
    have still : w.nextEntry env ≠ some .forgotten := by
      intro forgets
      exact kept (by simp [World.follow, entries_taken, forgets])
    exact ⟨root, h.tick still, fun _ _ => id, by simp⟩
  | some a =>
    obtain ⟨root', shown, stays, begins⟩ := h.act a
    exact ⟨root', shown, stays, fun m same => begins m (Option.some.inj same)⟩

/-- One more act of the run. -/
theorem Rooted.snoc {acts : List (Option (Act σ))} {a : Option (Act σ)} {root' : Nat → Option Call}
    (h : Rooted env first acts root) (stays : ∀ j k, root j = some k → root' j = some k)
    (begins : ∀ m, a = some (.receive m) → root' (reached env first acts).threads.length =
      some ⟨(reached env first acts).threads.length, 0, m⟩) : Rooted env first (acts ++ [a]) root' := by
  rintro l m received i rfl
  rcases Nat.lt_trichotomy l acts.length with before | rfl | beyond
  · rw [List.getElem?_append_left before] at received
    rw [List.take_append_of_le_length before.le]
    exact stays _ _ (h l m received _ rfl)
  · rw [List.getElem?_concat_length] at received
    rw [List.take_left]
    exact begins m (Option.some.inj received)
  · rw [List.getElem?_eq_none (by simpa using beyond)] at received
    cases received

/-- A run of the world comes with what its dispatches do, act by act. -/
theorem exists_occurrences (empty : first.threads = []) (acts : List (Option (Act σ)))
    (kept : .forgotten ∉ entries env (World.follow env acts [] first).1) :
    ∃ (chunks : List (List (Occurrence Call σ))) (root : Nat → Option Call) (trail : Nat → Trail σ),
      chunks.length = acts.length ∧
      (first.opening env).Unreset env.dispatcher.clock chunks.flatten ∧
      (reached env first acts).Shown env root trail
        ((first.opening env).after env.dispatcher.clock chunks.flatten) ∧
      Rooted env first acts root ∧
      ∀ j ≤ acts.length, Mirrored env first (acts.take j)
        ((first.opening env).after env.dispatcher.clock (chunks.take j).flatten) := by
  induction acts using List.reverseRecOn with
  | nil =>
    have shown : first.Shown env (fun _ => none) (fun _ => []) (first.opening env) := shown_of_empty empty
    have rooted : Rooted env first [] fun _ => none := by simp [Rooted]
    have mirrored : Mirrored env first [] (first.opening env) := Shown.mirrored shown rooted
    refine ⟨[], _, _, rfl, trivial, shown, rooted, fun j hj => ?_⟩
    obtain rfl : j = 0 := by simpa using hj
    exact mirrored
  | append_singleton acts a ih =>
    rw [follow_append] at kept
    obtain ⟨chunks, root, trail, length, unreset, shown, rooted, mirrored⟩ := ih fun before => kept (by
      cases a <;> simp [World.follow, before])
    obtain ⟨root', ⟨os, trail', unreset', shown'⟩, stays, begins⟩ := shown.follow a kept
    have now : (reached env first (acts ++ [a])).Shown env root' trail'
        ((first.opening env).after env.dispatcher.clock (chunks ++ [os]).flatten) := by
      simpa [reached, follow_append] using shown'
    have rooted' := rooted.snoc stays begins
    refine ⟨chunks ++ [os], root', trail', by simp [length], ?_, now, rooted', fun j hj => ?_⟩
    · simpa [Scene.unreset_append] using ⟨unreset, unreset'⟩
    · rcases Nat.lt_or_eq_of_le hj with before | rfl
      · have within : j ≤ acts.length := by
          simp only [List.length_append, List.length_singleton] at before
          omega
        rw [List.take_append_of_le_length within, List.take_append_of_le_length (length ▸ within)]
        exact mirrored j within
      · rw [List.take_length, List.take_of_length_le (by simp [length])]
        exact now.mirrored rooted'

end World

/-- The steps of the dispatches of one command can be kept and all others left out, without any change to the
results of these dispatches and to what the cooldowns know of the command after each step that is kept. Runs
of the world are made of such steps. -/
theorem commands_do_not_interfere (env : Surroundings σ) (name : String) :
    (∀ (ι : Type) [DecidableEq ι] (message : ι → Message) (tracker : Tracker) (now : Binary64)
      (os : List (Occurrence ι σ)), (Scene.start env message tracker now).Unreset env.dispatcher.clock os →
      ∀ before, before <+: os → Scene.Agrees env.dispatcher message name
        ((Scene.start env message tracker now).after env.dispatcher.clock before)
        ((Scene.start env message tracker now).after env.dispatcher.clock
          (before.filter (·.remains env.dispatcher message name)))) ∧
    ∀ (first : World σ) (acts : List (Option (Act σ))), first.threads = [] →
      .forgotten ∉ entries env (World.follow env acts [] first).1 →
      ∃ chunks : List (List (Occurrence Call σ)), chunks.length = acts.length ∧
        (first.opening env).Unreset env.dispatcher.clock chunks.flatten ∧
        ∀ j ≤ acts.length,
          World.Mirrored env first (acts.take j)
            ((first.opening env).after env.dispatcher.clock (chunks.take j).flatten) ∧
          Scene.Agrees env.dispatcher Call.message name
            ((first.opening env).after env.dispatcher.clock (chunks.take j).flatten)
            ((first.opening env).after env.dispatcher.clock
              ((chunks.take j).flatten.filter (·.remains env.dispatcher Call.message name))) := by
  have erased {ι : Type} [DecidableEq ι] {message : ι → Message} {tracker : Tracker} {now : Binary64}
      {os before : List (Occurrence ι σ)}
      (unreset : (Scene.start env message tracker now).Unreset env.dispatcher.clock os) (h : before <+: os) :
      Scene.Agrees env.dispatcher message name
        ((Scene.start env message tracker now).after env.dispatcher.clock before)
        ((Scene.start env message tracker now).after env.dispatcher.clock
          (before.filter (·.remains env.dispatcher message name))) := by
    obtain ⟨rest, rfl⟩ := h
    have same : Scene.Agrees env.dispatcher message name (Scene.start env message tracker now)
        (Scene.start env message tracker now) := ⟨rfl, .refl name tracker, fun _ _ => rfl⟩
    exact same.after (Scene.kept_start env message tracker now) (Scene.unreset_append.1 unreset).1
  refine ⟨fun ι _ message tracker now os unreset before h => erased unreset h,
    fun first acts empty kept => ?_⟩
  obtain ⟨chunks, _, _, length, unreset, -, -, mirrored⟩ := World.exists_occurrences empty acts kept
  have within : ∀ j, (chunks.take j).flatten <+: chunks.flatten := fun j =>
    ⟨(chunks.drop j).flatten, by rw [← List.flatten_append, List.take_append_drop]⟩
  exact ⟨chunks, length, unreset, fun j hj => ⟨mirrored j hj, erased unreset (within j)⟩⟩

def doorDispatcher : Dispatcher where
  options := { cooldown := some 1000 }
  registry := ⟨[{ definition := { name := "knock" }, execute := some (.fixed (.ok .none)) },
    { definition := { name := "ring" }, execute := some (.fixed (.error .cancelled)) }]⟩

def doorEnv : Surroundings Unit := ⟨Host.silent, doorDispatcher⟩

def atDoor (knocks : Bool) : Message where
  content := some (if knocks then "knock" else "ring")
  reply := .closed

/-- Someone knocks, and meanwhile the bell is rung and that is cancelled. -/
def doorSteps : List (Occurrence Bool Unit) :=
  [true, false, false, true, true, false, true, true].map fun k => .step k (EngineRequest.anyAnswer ())

def doorScene : Scene Bool Unit := Scene.start doorEnv atDoor doorDispatcher.tracker default

/-- What is left of the steps without the bell. -/
def doorKnocks : List (Occurrence Bool Unit) := doorSteps.filter (·.remains doorDispatcher atDoor "knock")

def hasKnocked (s : Scene Bool Unit) : Bool :=
  match s.calls true with
  | .done (.ok (.succeeded c)) => c.name == "knock"
  | _ => false

def doorWorld : World Unit where
  shared := { host := (), clock := default }

def doorActs : List (Option (Act Unit)) :=
  [some (.receive (atDoor true)), none, some (.receive (atDoor false)), none, none, none]

/-- The knocking ends the same way without the bell, and is remembered. -/
theorem door_apart : doorScene.Unreset .host doorSteps ∧
    hasKnocked (doorScene.after .host doorKnocks) = true ∧
    ((doorScene.after .host doorKnocks).tracker.latest.find? "knock").isSome = true ∧
    ∃ chunks : List (List (Occurrence Call Unit)), chunks.length = doorActs.length ∧
      World.Mirrored doorEnv doorWorld doorActs ((doorWorld.opening doorEnv).after .host chunks.flatten) := by
  obtain ⟨scenes, runs⟩ := commands_do_not_interfere doorEnv "knock"
  have unreset : doorScene.Unreset .host doorSteps := by decide +kernel
  have agrees : Scene.Agrees doorDispatcher atDoor "knock" (doorScene.after .host doorSteps)
      (doorScene.after .host doorKnocks) :=
    scenes Bool atDoor _ _ doorSteps unreset doorSteps (List.prefix_refl _)
  obtain ⟨chunks, length, -, mirrored⟩ := runs doorWorld doorActs rfl (by decide +kernel)
  refine ⟨unreset, ?_, ?_, chunks, length, ?_⟩
  · rw [hasKnocked, agrees.calls true (by decide +kernel)]
    exact (by decide +kernel : hasKnocked (doorScene.after .host doorSteps) = true)
  · rw [agrees.tracker.latest]
    decide +kernel
  · have all := (mirrored doorActs.length le_rfl).1
    rwa [List.take_length, List.take_of_length_le length.le] at all

end ChatCommands
