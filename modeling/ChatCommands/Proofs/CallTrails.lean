import Mathlib
import ChatCommands.Proofs.ConcurrentCalls
import ChatCommands.Proofs.TaskStep

set_option autoImplicit false

/-!
# Trails of calls

A thread of the world may be in the middle of several dispatches, one begun by a
callback of another. Its trail lists all dispatches that it has begun, the latest
first, each with what is left of it. A task and a trail fit together if the task
goes on with the latest dispatch that has not ended, or with code that stands for
the request that this dispatch has made, and then with those before it.
-/
namespace ChatCommands
variable {σ α : Type}

/-- A dispatch in a run of the world: the thread that begins it, how many it had begun before, and the
message. -/
structure Call where
  thread : Nat
  index : Nat
  message : Message

noncomputable instance : DecidableEq Call := Classical.decEq Call

abbrev Trail (σ : Type) := List (Call × Engine σ (Except Fault Outcome))

namespace Trail

def keys (js : Trail σ) : List Call := js.map (·.1)

theorem mem_keys {js : Trail σ} {e : Call × Engine σ (Except Fault Outcome)} (h : e ∈ js) : e.1 ∈ js.keys :=
  List.mem_map_of_mem h

/-- What is left of a call has no part in who the calls are. -/
theorem keys_middle (before after : Trail σ) (k : Call) (q q' : Engine σ (Except Fault Outcome)) :
    keys (before ++ (k, q) :: after) = keys (before ++ (k, q') :: after) := by
  simp [keys]

end Trail

/-- The calls are those of the thread, numbered from the earliest on. -/
def Numbered (thread : Nat) : List Call → Prop
  | [] => True
  | k :: ks => k.thread = thread ∧ k.index = ks.length ∧ Numbered thread ks

theorem Numbered.mem {thread : Nat} {ks : List Call} (h : Numbered thread ks) {k : Call} (hk : k ∈ ks) :
    k.thread = thread ∧ k.index < ks.length := by
  induction ks with
  | nil => cases hk
  | cons j ks ih =>
    obtain ⟨same, number, below⟩ := h
    rcases List.mem_cons.1 hk with rfl | hk
    · exact ⟨same, by simp [number]⟩
    · obtain ⟨same', bound⟩ := ih below hk
      exact ⟨same', bound.trans (Nat.lt_succ_self _)⟩

theorem Numbered.nodup {thread : Nat} {ks : List Call} (h : Numbered thread ks) : ks.Nodup := by
  induction ks with
  | nil => exact List.nodup_nil
  | cons k ks ih =>
    obtain ⟨-, number, below⟩ := h
    refine List.nodup_cons.2 ⟨fun again => ?_, ih below⟩
    have bound := (below.mem again).2
    omega

/-- The surroundings answer the request: it neither concerns the runs of commands nor has them forgotten. -/
def EngineRequest.Passive : EngineRequest σ → Prop
  | .claimRun _ | .finish _ | .record _ | .effect .resetCooldowns => False
  | _ => True

theorem EngineRequest.Passive.untracked {r : EngineRequest σ} (h : r.Passive) : r.Untracked := by
  cases r with
  | claimRun c | finish name | record c => exact h.elim
  | _ => trivial

theorem EngineRequest.Passive.kept {r : EngineRequest σ} (h : r.Passive) : r ≠ .effect .resetCooldowns := by
  rintro rfl
  exact h

theorem EngineRequest.passive_or {r : EngineRequest σ} (kept : r ≠ .effect .resetCooldowns) :
    r.Passive ∨ ¬ r.Untracked := by
  cases r with
  | claimRun c | finish name | record c => exact .inr id
  | effect e =>
    cases e with
    | resetCooldowns => exact absurd rfl kept
    | _ => exact .inl trivial
  | _ => exact .inl trivial

theorem Tracker.serve_passive (t : Tracker) (clock : Clock) (now : Binary64)
    (given : (r : EngineRequest σ) → r.Answer) {r : EngineRequest σ} (h : r.Passive) :
    t.serve clock now given r = (given r, t) := by
  cases r with
  | claimRun c | finish name | record c => exact h.elim
  | effect e =>
    cases e with
    | resetCooldowns => exact h.elim
    | _ => rfl
  | _ => rfl

/-- Some answer to each request. -/
def EngineRequest.anyAnswer (host : σ) : (r : EngineRequest σ) → r.Answer
  | .effect (.host _) => host
  | .effect .wait => .ok .none
  | .effect (.dispatch _) => .error .cancelled
  | .effect (.emit ..) | .effect (.edit _) => .ok ()
  | .effect (.advance _) | .effect .resetCooldowns | .effect (.note _) => ()
  | .claimRun _ => false
  | .finish _ => ()
  | .record _ => .ok ()
  | .seconds => default
  | .listeners _ => []
  | .middlewareAt _ => none
  | .sweep .. => .error .cancelled
  | .notify .. => .error .cancelled
  | .count .. => 0

theorem exists_given (host : σ) (r : EngineRequest σ) (x : r.Answer) :
    ∃ given : (r : EngineRequest σ) → r.Answer, given r = x := by
  classical
  exact ⟨Function.update (EngineRequest.anyAnswer host) r x, Function.update_self ..⟩

/-- The task fits the trail. The root is the dispatch for which the thread was started, if it was. -/
inductive Fits (root : Option Call) : Trail σ → Task σ → Prop where
  /-- outside any dispatch -/
  | free {p : Task σ} (plain : root = none) (untracked : Untracked p) : Fits root [] p
  | ended {k : Call} {r : Except Fault Outcome} (mine : root = some k) :
      Fits root [(k, .done r)] (.done (.outcome r))
  | returned {k : Call} {r : Except Fault Outcome} {js : Trail σ} {p : Task σ} (below : Fits root js p) :
      Fits root ((k, .done r) :: js) p
  | active {k : Call} {q : Engine σ (Except Fault Outcome)} {js : Trail σ}
      {f : Except Fault Outcome → Task σ} (rest : ∀ r, Fits root ((k, .done r) :: js) (f r)) :
      Fits root ((k, q) :: js) (q.bind f)
  /-- code that stands for the request is under way -/
  | waiting {k : Call} {r : EngineRequest σ} {more : r.Answer → Engine σ (Except Fault Outcome)}
      {js : Trail σ} {u : Engine σ r.Answer} {f : r.Answer → Task σ} (passive : r.Passive)
      (untracked : Untracked u) (rest : ∀ x, Fits root ((k, more x) :: js) (f x)) :
      Fits root ((k, .ask r more) :: js) (u.bind f)

/-- The task fits the trail, and what is told of it there is up to date. -/
inductive Current (root : Option Call) : Trail σ → Task σ → Prop where
  | free {p : Task σ} (plain : root = none) (untracked : Untracked p) : Current root [] p
  | ended {k : Call} {r : Except Fault Outcome} (mine : root = some k) :
      Current root [(k, .done r)] (.done (.outcome r))
  | returned {k : Call} {r : Except Fault Outcome} {js : Trail σ} {p : Task σ} (below : Current root js p) :
      Current root ((k, .done r) :: js) p
  | active {k : Call} {r : EngineRequest σ} {more : r.Answer → Engine σ (Except Fault Outcome)} {js : Trail σ}
      {f : Except Fault Outcome → Task σ} (rest : ∀ r, Fits root ((k, .done r) :: js) (f r)) :
      Current root ((k, .ask r more) :: js) (.ask r fun x => (more x).bind f)
  | waiting {k : Call} {r r' : EngineRequest σ} {more : r.Answer → Engine σ (Except Fault Outcome)}
      {js : Trail σ} {g : r'.Answer → Engine σ r.Answer} {f : r.Answer → Task σ} (passive : r.Passive)
      (here : r'.Untracked) (untracked : ∀ x, Untracked (g x))
      (rest : ∀ x, Fits root ((k, more x) :: js) (f x)) :
      Current root ((k, .ask r more) :: js) (.ask r' fun x => (g x).bind f)

namespace Current
variable {root : Option Call} {js : Trail σ}

theorem fits {p : Task σ} (h : Current root js p) : Fits root js p := by
  induction h with
  | free plain untracked => exact .free plain untracked
  | ended mine => exact .ended mine
  | returned below ih => exact .returned ih
  | @active k r more js f rest => exact Fits.active (q := .ask r more) rest
  | @waiting k r r' more js g f passive here untracked rest =>
    exact Fits.waiting (u := .ask r' g) passive ⟨here, untracked⟩ rest

/-- A task goes on with code that stands for its request, or with an answer to it. -/
theorem unfold {r : EngineRequest σ} {next : r.Answer → Task σ} (h : Current root js (.ask r next))
    (passive : r.Passive) {u : Engine σ r.Answer} (untracked : Untracked u) : Fits root js (u.bind next) := by
  generalize hp : (Program.ask r next : Task σ) = p at h
  induction h with
  | free plain free =>
    subst hp
    exact .free plain (untracked.bind free.2)
  | ended mine => cases hp
  | returned below ih => exact .returned (ih hp)
  | active rest =>
    cases hp
    exact .waiting passive untracked fun x => .active rest
  | waiting passive' here free rest =>
    cases hp
    rw [← Program.bind_assoc]
    exact .waiting passive' (untracked.bind free) rest

theorem answered {r : EngineRequest σ} {next : r.Answer → Task σ} (h : Current root js (.ask r next))
    (passive : r.Passive) (x : r.Answer) : Fits root js (next x) :=
  h.unfold passive (u := .done x) trivial

/-- A request that concerns runs is made by the latest dispatch that has not ended. -/
theorem tracked {r : EngineRequest σ} {next : r.Answer → Task σ} (h : Current root js (.ask r next))
    (tracked : ¬ r.Untracked) : ∃ before k more after, js = before ++ (k, .ask r more) :: after ∧
      ∀ x, Fits root (before ++ (k, more x) :: after) (next x) := by
  generalize hp : (Program.ask r next : Task σ) = p at h
  induction h with
  | free plain free =>
    subst hp
    exact absurd free.1 tracked
  | ended mine => cases hp
  | @returned k r' js p below ih =>
    obtain ⟨before, k', more, after, rfl, rest⟩ := ih hp
    exact ⟨(k, .done r') :: before, k', more, after, rfl, fun x => .returned (rest x)⟩
  | @active k _ more js f rest =>
    cases hp
    exact ⟨[], k, more, js, rfl, fun x => .active rest⟩
  | waiting passive here free rest =>
    cases hp
    exact absurd here tracked

/-- When the task ends, so has the dispatch for which the thread was started. -/
theorem result {r : Finish} (h : Current root js (.done r)) {k : Call} (mine : root = some k) :
    ∃ o, r = .outcome o ∧ (k, .done o) ∈ js := by
  generalize hp : (Program.done r : Task σ) = p at h
  induction h with
  | free plain free => cases plain.symm.trans mine
  | @ended k' o mine' =>
    cases mine.symm.trans mine'
    cases hp
    exact ⟨o, rfl, List.mem_singleton_self _⟩
  | returned below ih =>
    obtain ⟨o, ended, mem⟩ := ih hp
    exact ⟨o, ended, List.mem_cons_of_mem _ mem⟩
  | active rest => cases hp
  | waiting passive here free rest => cases hp

end Current

namespace Scene
variable {clock : Clock} {s : Scene Call σ}

/-- What is left of the calls is what the trail tells. -/
def Shows (s : Scene Call σ) (js : Trail σ) : Prop := ∀ e ∈ js, s.calls e.1 = e.2

/-- One of the calls has taken a step. -/
theorem Shows.update {before after : Trail σ} {k : Call} {q : Engine σ (Except Fault Outcome)}
    (shows : s.Shows (before ++ (k, q) :: after)) (distinct : (Trail.keys (before ++ (k, q) :: after)).Nodup)
    {s' : Scene Call σ} {q' : Engine σ (Except Fault Outcome)}
    (calls : s'.calls = Function.update s.calls k q') : s'.Shows (before ++ (k, q') :: after) := by
  have fresh : k ∉ Trail.keys before ++ Trail.keys after := by
    simp only [Trail.keys, List.map_append, List.map_cons, List.nodup_middle] at distinct
    exact (List.nodup_cons.1 distinct).1
  have others : ∀ e ∈ before ++ after, s'.calls e.1 = s.calls e.1 := by
    intro e he
    have other : e.1 ≠ k := by
      rintro rfl
      exact fresh (by simpa [Trail.keys] using List.mem_map_of_mem (f := (·.1)) he)
    rw [calls, Function.update_of_ne other]
  intro e he
  rcases List.mem_append.1 he with he | he
  · rw [others e (List.mem_append_left _ he)]
    exact shows e (List.mem_append_left _ he)
  · rcases List.mem_cons.1 he with rfl | he
    · rw [calls]
      exact Function.update_self ..
    · rw [others e (List.mem_append_right _ he)]
      exact shows e (List.mem_append_right _ (List.mem_cons_of_mem _ he))

/-- Only these calls take steps, and the surroundings answer them. -/
structure Passes (clock : Clock) (s : Scene Call σ) (os : List (Occurrence Call σ)) (ks : List Call) :
    Prop where
  unreset : s.Unreset clock os
  tracker : (s.after clock os).tracker = s.tracker
  now : (s.after clock os).now = s.now
  elsewhere : ∀ k, k ∉ ks → (s.after clock os).calls k = s.calls k

theorem passes_nil (s : Scene Call σ) (ks : List Call) : s.Passes clock [] ks :=
  ⟨trivial, rfl, rfl, fun _ _ => rfl⟩

theorem Passes.mono {os : List (Occurrence Call σ)} {ks ks' : List Call} (h : s.Passes clock os ks)
    (le : ks ⊆ ks') : s.Passes clock os ks' :=
  ⟨h.unreset, h.tracker, h.now, fun k hk => h.elsewhere k fun mem => hk (le mem)⟩

theorem next_of_passive (clock : Clock) {k : Call} {r : EngineRequest σ}
    {more : r.Answer → Engine σ (Except Fault Outcome)} (h : s.calls k = .ask r more)
    (passive : r.Passive) (given : (r : EngineRequest σ) → r.Answer) :
    s.next clock (.step k given) = { s with calls := Function.update s.calls k (more (given r)) } := by
  rw [next_of_ask h, Tracker.serve_passive _ _ _ _ passive]

/-- What has been answered meanwhile is told to the dispatches that wait for it. -/
theorem catch_up (host : σ) (clock : Clock) {root : Option Call} {js : Trail σ} {p : Task σ}
    (fits : Fits root js p) {s : Scene Call σ} (shows : s.Shows js) (distinct : js.keys.Nodup) :
    ∃ os js', Trail.keys js' = js.keys ∧ Current root js' p ∧ s.Passes clock os js.keys ∧
      (s.after clock os).Shows js' := by
  induction fits generalizing s with
  | free plain untracked => exact ⟨[], [], rfl, .free plain untracked, s.passes_nil _, shows⟩
  | ended mine => exact ⟨[], _, rfl, .ended mine, s.passes_nil _, shows⟩
  | @returned k r js p below ih =>
    obtain ⟨fresh, distinct⟩ := List.nodup_cons.1 distinct
    obtain ⟨here, shows⟩ := List.forall_mem_cons.1 shows
    obtain ⟨os, js', keys, current, passes, shows'⟩ := ih shows distinct
    refine ⟨os, (k, .done r) :: js', congrArg (k :: ·) keys, .returned current,
      passes.mono (List.subset_cons_self ..), List.forall_mem_cons.2 ⟨?_, shows'⟩⟩
    exact (passes.elsewhere k fresh).trans here
  | @active k q js f rest ih =>
    cases q with
    | done r => exact ih r shows distinct
    | ask r more => exact ⟨[], _, rfl, .active rest, s.passes_nil _, shows⟩
  | @waiting k r more js u f passive untracked rest ih =>
    cases u with
    | ask r' g => exact ⟨[], _, rfl, .waiting passive untracked.1 untracked.2 rest, s.passes_nil _, shows⟩
    | done x =>
      -- the code has ended with an answer, and so the dispatch takes the step that it has waited to take
      obtain ⟨given, rfl⟩ := exists_given host r x
      have here : s.calls k = .ask r more := shows _ List.mem_cons_self
      have told := next_of_passive clock here passive given
      have shows' : (s.next clock (.step k given)).Shows ([] ++ (k, more (given r)) :: js) :=
        Shows.update shows distinct (by rw [told])
      obtain ⟨os, js', keys, current, passes, shows'⟩ := ih (given r) shows' distinct
      refine ⟨.step k given :: os, js', keys, current,
        ⟨⟨?_, passes.unreset⟩, ?_, ?_, fun k' hk' => ?_⟩, shows'⟩
      · exact resets_of_ask here passive.kept
      · rw [after_cons, passes.tracker, told]
      · rw [after_cons, passes.now, told]
      · have other : k' ≠ k := fun same => hk' (same ▸ List.mem_cons_self)
        rw [after_cons, passes.elsewhere k' hk', told]
        exact Function.update_of_ne other _ _

end Scene
end ChatCommands
