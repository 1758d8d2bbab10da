import Mathlib
import ChatCommands.Proofs.WorldRun

set_option autoImplicit false

/-!
# The world at rest

No thread is forgotten: one that can go on has a turn, and one that waits for
tasks of its own is still to be told of each that it counts as missing. So a
thread that has not ended goes on, unless it or one of its tasks waits for the host.
-/
namespace ChatCommands
variable {σ : Type}

def ThreadState.IsFinished (st : ThreadState σ) : Prop := ∃ r, st = .finished r

/-- The thread goes on by itself. -/
def ThreadState.Ready (st : ThreadState σ) : Prop :=
  (∃ p, st = .running p) ∨ ∃ children cancelled next, st = .joining children 0 cancelled next

theorem ThreadState.not_isFinished_running (p : Task σ) : ¬ (running p).IsFinished := by
  rintro ⟨r, ⟨⟩⟩

theorem ThreadState.not_isFinished_joining (children : List Nat) (missing : Nat) (cancelled : Bool)
    (next : Except Fault (List (Except Fault Value)) → Task σ) :
    ¬ (joining children missing cancelled next).IsFinished := by
  rintro ⟨r, ⟨⟩⟩

def Turn.thread : Turn → Nat
  | .step i | .report i => i

namespace Thread

def cancelled (root : Nat) (t : Thread σ) : Thread σ :=
  if t.root = root then { t with state := t.state.cancel.1 } else t

variable {root : Nat}

theorem cancelled_parent (t : Thread σ) (root : Nat) : (t.cancelled root).parent = t.parent := by
  unfold cancelled
  split <;> rfl

theorem cancelled_root (t : Thread σ) (root : Nat) : (t.cancelled root).root = t.root := by
  unfold cancelled
  split <;> rfl

theorem finished_of_cancelled (t : Thread σ) (h : (t.cancelled root).state.IsFinished) :
    t.state.IsFinished := by
  unfold cancelled at h
  split at h
  · cases hs : t.state <;> simp_all [ThreadState.cancel, ThreadState.IsFinished]
  · exact h

theorem ready_of_cancelled (t : Thread σ) (h : (t.cancelled root).state.Ready) :
    t.state.Ready ∨ t.root = root ∧ t.state.cancel.2 = true := by
  unfold cancelled at h
  split at h
  · cases hs : t.state <;> simp_all [ThreadState.cancel, ThreadState.Ready]
  · exact .inl h

theorem joining_of_cancelled (t : Thread σ) {children : List Nat} {missing : Nat} {broken : Bool}
    {next : Except Fault (List (Except Fault Value)) → Task σ}
    (h : (t.cancelled root).state = .joining children missing broken next) :
    ∃ broken, t.state = .joining children missing broken next := by
  unfold cancelled at h
  split at h
  · cases hs : t.state <;> simp_all [ThreadState.cancel]
  · exact ⟨broken, h⟩

end Thread

theorem Turn.mem_rest {turns rest : List Turn} {first turn : Turn} (h : turns = first :: rest)
    (mem : turn ∈ turns) (other : turn ≠ first) : turn ∈ rest := by
  subst h
  exact (List.mem_cons.1 mem).resolve_left other

namespace World

/-- The thread has yet to tell its parent that it has ended. -/
def Owes (w : World σ) (parent root j : Nat) : Prop :=
  parent < j ∧ ∃ t, w.threads[j]? = some t ∧ t.parent = some parent ∧ t.root = root ∧
    (t.state.IsFinished → .report j ∈ w.turns)

/-- A thread that waits for its own tasks is owed as many reports as it misses. -/
def Accounted (w : World σ) (i root missing : Nat) : Prop :=
  ∃ owing : List Nat, owing.Nodup ∧ owing.length = missing ∧ ∀ j ∈ owing, w.Owes i root j

structure Attended (w : World σ) : Prop where
  due : ∀ i t, w.threads[i]? = some t → t.state.Ready → .step i ∈ w.turns
  accounted : ∀ i t, w.threads[i]? = some t → ∀ children missing cancelled next,
    t.state = .joining children missing cancelled next → w.Accounted i t.root missing

theorem attended_of_empty {w : World σ} (h : w.threads = []) : w.Attended where
  due i t ht := by simp [h] at ht
  accounted i t ht := by simp [h] at ht

theorem threads_setState (w : World σ) (i j : Nat) (st : ThreadState σ) :
    (w.setState i st).threads[j]? =
      (w.threads[j]?).map fun t => if i = j then { t with state := st } else t := by
  by_cases h : i = j <;> simp [setState, h]

/-- The threads of one world are those of another, none of which has ended in between without
reporting. -/
structure Continues (w w' : World σ) : Prop where
  threads : ∀ j t, w.threads[j]? = some t → ∃ t', w'.threads[j]? = some t' ∧ t'.parent = t.parent ∧
    t'.root = t.root ∧ (t'.state.IsFinished → t.state.IsFinished ∨ t.parent = none ∨ .report j ∈ w'.turns)

theorem Continues.owes {w w' : World σ} (h : w.Continues w') {i root j : Nat}
    (owes : w.Owes i root j) (reports : .report j ∈ w.turns → .report j ∈ w'.turns) :
    w'.Owes i root j := by
  obtain ⟨later, t, ht, isChild, hroot, finished⟩ := owes
  obtain ⟨t', ht', hparent, hroot', ended⟩ := h.threads j t ht
  refine ⟨later, t', ht', hparent.trans isChild, hroot'.trans hroot, fun hf => ?_⟩
  rcases ended hf with before | orphan | reported
  · exact reports (finished before)
  · simp [orphan] at isChild
  · exact reported

theorem Continues.accounted {w w' : World σ} (h : w.Continues w') {i root missing : Nat}
    (accounted : w.Accounted i root missing)
    (reports : ∀ j, w.Owes i root j → .report j ∈ w.turns → .report j ∈ w'.turns) :
    w'.Accounted i root missing := by
  obtain ⟨owing, nodup, count, owes⟩ := accounted
  exact ⟨owing, nodup, count, fun j hj => h.owes (owes j hj) (reports j (owes j hj))⟩

theorem continues_setState (w : World σ) {i : Nat} {st : ThreadState σ} {turns : List Turn}
    {shared : Shared σ}
    (h : ∀ t, w.threads[i]? = some t → st.IsFinished → t.parent = none ∨ .report i ∈ turns) :
    w.Continues { w.setState i st with turns, shared } where
  threads j t ht := by
    refine ⟨_, by rw [threads_setState, ht]; rfl, ?_⟩
    dsimp only
    split
    case isTrue same =>
      subst same
      exact ⟨rfl, rfl, fun hf => .inr (h t ht hf)⟩
    case isFalse => exact ⟨rfl, rfl, .inl⟩

theorem Attended.setState {w : World σ} (hw : w.Attended) {i : Nat} {st : ThreadState σ}
    {turns : List Turn} {shared : Shared σ} (ready : st.Ready → .step i ∈ turns)
    (steps : ∀ k ≠ i, .step k ∈ w.turns → .step k ∈ turns)
    (reports : ∀ k ≠ i, ∀ root j, w.Owes k root j → .report j ∈ w.turns → .report j ∈ turns)
    (ended : ∀ t, w.threads[i]? = some t → st.IsFinished → t.parent = none ∨ .report i ∈ turns)
    (joins : ∀ t, w.threads[i]? = some t → ∀ children missing cancelled next,
      st = .joining children missing cancelled next →
      { w.setState i st with turns, shared }.Accounted i t.root missing) :
    { w.setState i st with turns, shared }.Attended where
  due k t ht hr := by
    obtain ⟨t, ht', rfl⟩ := Option.map_eq_some_iff.1 ((threads_setState w i k st) ▸ ht)
    split at hr
    case isTrue same => exact same ▸ ready hr
    case isFalse other => exact steps k (Ne.symm other) (hw.due k t ht' hr)
  accounted k t ht children missing cancelled next hs := by
    obtain ⟨t, ht', rfl⟩ := Option.map_eq_some_iff.1 ((threads_setState w i k st) ▸ ht)
    dsimp only at hs ⊢
    split at hs
    case isTrue same =>
      subst same
      simpa using joins t ht' _ _ _ _ hs
    case isFalse other =>
      rw [if_neg other]
      exact (continues_setState w ended).accounted (hw.accounted k t ht' _ _ _ _ hs)
        (reports k (Ne.symm other) _)

theorem Attended.go {w : World σ} (hw : w.Attended) {i : Nat} {rest : List Turn} {p : Task σ}
    {shared : Shared σ} (h : w.turns = .step i :: rest) :
    { w.setState i (.running p) with turns := w.turns, shared }.Attended := by
  refine hw.setState (fun _ => by simp [h]) (fun _ _ => id) (fun _ _ _ _ _ => id) ?_ ?_
  · exact fun _ _ finished => absurd finished (ThreadState.not_isFinished_running p)
  · rintro _ _ _ _ _ _ ⟨⟩

theorem Attended.append {w : World σ} (hw : w.Attended) {ts : List (Thread σ)} {turns : List Turn}
    (kept : w.turns ⊆ turns)
    (begun : ∀ k t, ts[k]? = some t → (∃ p, t.state = .running p) ∧ .step (w.threads.length + k) ∈ turns) :
    { w with threads := w.threads ++ ts, turns }.Attended := by
  have cases_thread : ∀ {k : Nat} {t : Thread σ}, (w.threads ++ ts)[k]? = some t →
      w.threads[k]? = some t ∨ (∃ p, t.state = .running p) ∧ .step k ∈ turns := by
    intro k t ht
    rw [List.getElem?_append] at ht
    split at ht
    case isTrue => exact .inl ht
    case isFalse hk =>
      have joined := begun _ t ht
      rw [Nat.add_sub_cancel' (not_lt.1 hk)] at joined
      exact .inr joined
  have continues : w.Continues { w with threads := w.threads ++ ts, turns } := by
    refine ⟨fun j t ht => ⟨t, ?_, rfl, rfl, .inl⟩⟩
    rw [List.getElem?_append_left (List.getElem?_eq_some_iff.1 ht).1]
    exact ht
  constructor
  · intro k t ht hr
    rcases cases_thread ht with old | ⟨-, due⟩
    · exact kept (hw.due k t old hr)
    · exact due
  · intro k t ht children missing cancelled next hs
    rcases cases_thread ht with old | ⟨⟨p, running⟩, -⟩
    · exact continues.accounted (hw.accounted k t old _ _ _ _ hs) fun _ _ hj => kept hj
    · rw [running] at hs
      cases hs

theorem Attended.drop {w : World σ} (hw : w.Attended) {turns : List Turn}
    (steps : ∀ k t, w.threads[k]? = some t → t.state.Ready → .step k ∈ w.turns → .step k ∈ turns)
    (reports : ∀ k t, w.threads[k]? = some t → ∀ children missing cancelled next,
      t.state = .joining children (missing + 1) cancelled next → ∀ j, w.Owes k t.root j →
      .report j ∈ w.turns → .report j ∈ turns) : { w with turns }.Attended where
  due k t ht hr := steps k t ht hr (hw.due k t ht hr)
  accounted k t ht children missing cancelled next hs := by
    cases missing with
    | zero => exact ⟨[], List.nodup_nil, rfl, by simp⟩
    | succ missing =>
      have continues : w.Continues { w with turns } := ⟨fun j t ht => ⟨t, ht, rfl, rfl, .inl⟩⟩
      exact continues.accounted (hw.accounted k t ht _ _ _ _ hs) (reports k t ht _ _ _ _ hs)

theorem exists_fewer {l : List Nat} (nodup : l.Nodup) {n : Nat} (h : l.length = n + 1) (x : Nat) :
    ∃ l' : List Nat, l'.Nodup ∧ l'.length = n ∧ ∀ j ∈ l', j ∈ l ∧ j ≠ x := by
  refine ⟨(l.erase x).take n, (nodup.erase x).sublist (List.take_sublist _ _), ?_, fun j hj => ?_⟩
  · rw [List.length_take, List.length_erase]
    split <;> omega
  · obtain ⟨other, mem⟩ := nodup.mem_erase_iff.1 (List.mem_of_mem_take hj)
    exact ⟨mem, other⟩

theorem Attended.hear {w : World σ} (hw : w.Attended) {i parent : Nat} {rest : List Turn}
    {t : Thread σ} {children : List Nat} {missing : Nat} {cancelled : Bool}
    {next : Except Fault (List (Except Fault Value)) → Task σ} (h : w.turns = .report i :: rest)
    (thread : w.threads[i]? = some t) (isChild : t.parent = some parent)
    (state : w.state? parent = some (.joining children (missing + 1) cancelled next)) :
    { w.setState parent (.joining children missing cancelled next) with
      turns := if missing = 0 then rest ++ [Turn.step parent] else rest }.Attended := by
  have later : ∀ turn ∈ w.turns, turn ≠ .report i →
      turn ∈ if missing = 0 then rest ++ [Turn.step parent] else rest := by
    intro turn mem other
    have mem := Turn.mem_rest h mem other
    split
    · exact List.mem_append_left _ mem
    · exact mem
  have unfinished := ThreadState.not_isFinished_joining children missing cancelled next
  refine hw.setState ?_ ?_ ?_ (fun _ _ finished => absurd finished unfinished) ?_
  · rintro (⟨p, ⟨⟩⟩ | ⟨_, _, _, ⟨⟩⟩)
    simp
  · exact fun k _ mem => later _ mem nofun
  · rintro k hk root j ⟨-, t', ht', hp, -⟩ mem
    apply later _ mem
    rintro ⟨⟩
    rw [thread] at ht'
    cases ht'
    exact hk (Option.some.inj (hp.symm.trans isChild))
  · rintro t' ht' _ _ _ _ ⟨⟩
    have hs : t'.state = .joining children (missing + 1) cancelled next := by
      simpa [state?_of_thread ht'] using state
    obtain ⟨owing, nodup, count, owes⟩ := hw.accounted parent t' ht' _ _ _ _ hs
    obtain ⟨fewer, nodup', count', among⟩ := exists_fewer nodup count i
    refine ⟨fewer, nodup', count', fun j hj => ?_⟩
    obtain ⟨mem, other⟩ := among j hj
    refine (continues_setState w ?_).owes (owes j mem) ?_
    · exact fun _ _ finished => absurd finished unfinished
    · exact fun reported => later _ reported (by simpa using other)

theorem modify_append_left {α : Type} {l : List α} {i : Nat} (h : i < l.length) (f : α → α)
    (l' : List α) : l.modify i f ++ l' = (l ++ l').modify i f := by
  refine List.ext_getElem? ?_
  intro k
  simp only [List.getElem?_append, List.getElem?_modify, List.length_modify]
  by_cases hk : k < l.length
  · simp [hk]
  · have : i ≠ k := by omega
    simp [hk, this]

theorem Attended.spawn {w : World σ} (hw : w.Attended) {i : Nat} {rest : List Turn} {t : Thread σ}
    {tasks : List (Engine σ (Except Fault Value))}
    {next : Except Fault (List (Except Fault Value)) → Task σ} (h : w.turns = .step i :: rest)
    (thread : w.threads[i]? = some t) (some : tasks ≠ []) :
    ({ w with turns := rest }.spawn i t.root tasks next).Attended := by
  have hi := (List.getElem?_eq_some_iff.1 thread).1
  let children := List.range' w.threads.length tasks.length
  let started : List (Thread σ) := tasks.map fun p =>
    { state := .running (p.bind fun r => .done (.value r)), parent := Option.some i, root := t.root }
  have fresh : ∀ t' ∈ started, t'.parent = Option.some i ∧ t'.root = t.root ∧
      ∃ p, t'.state = .running p := by
    intro t' ht'
    obtain ⟨p, -, rfl⟩ := List.mem_map.1 ht'
    exact ⟨rfl, rfl, _, rfl⟩
  let turns := rest ++ children.map Turn.step
  let grown : World σ := { w with threads := w.threads ++ started, turns := .step i :: turns }
  have attended : grown.Attended := by
    refine hw.append ?_ fun k t' ht' => ⟨(fresh t' (List.mem_of_getElem? ht')).2.2, ?_⟩
    · rw [h]
      exact List.cons_subset_cons _ (List.subset_append_left _ _)
    · have hk : k < tasks.length := by
        simpa [started] using (List.getElem?_eq_some_iff.1 ht').1
      refine List.mem_cons_of_mem _ (List.mem_append_right _ (List.mem_map_of_mem ?_))
      exact List.mem_range'_1.2 ⟨by omega, by omega⟩
  have same : { w with turns := rest }.spawn i t.root tasks next =
      { grown.setState i (.joining children children.length false next) with
        turns, shared := w.shared } := by
    simp [World.spawn, World.setState, grown, turns, children, started, modify_append_left hi]
  have unfinished := ThreadState.not_isFinished_joining children children.length false next
  rw [same]
  refine attended.setState ?_ ?_ ?_ (fun _ _ finished => absurd finished unfinished) ?_
  · rintro (⟨p, ⟨⟩⟩ | ⟨_, _, _, joined⟩)
    have none : tasks.length = 0 := by simpa [children] using (ThreadState.joining.inj joined).2.1
    exact absurd (List.length_eq_zero_iff.1 none) some
  · exact fun k other mem => Turn.mem_rest rfl mem (by simpa using other)
  · exact fun _ _ _ j _ mem => Turn.mem_rest rfl mem (by simp)
  · rintro t' ht' _ _ _ _ ⟨⟩
    have old : t' = t := by
      rw [List.getElem?_append_left hi, thread] at ht'
      exact (Option.some.inj ht').symm
    subst old
    refine ⟨children, List.nodup_range', rfl, fun j hj => ?_⟩
    obtain ⟨lower, upper⟩ := List.mem_range'_1.1 hj
    have hj' : j - w.threads.length < started.length := by
      simp only [started, List.length_map]
      omega
    obtain ⟨isChild, root, p, running⟩ := fresh _ (List.getElem_mem hj')
    refine ⟨by omega, started[j - w.threads.length], ?_, isChild, root, ?_⟩
    · change (grown.setState i _).threads[j]? = _
      rw [threads_setState, List.getElem?_append_right lower, List.getElem?_eq_getElem hj']
      simp [show i ≠ j by omega]
    · rw [running]
      exact fun finished => absurd finished (ThreadState.not_isFinished_running p)

theorem Attended.tick {w : World σ} (hw : w.Attended) (env : Surroundings σ) :
    (w.tick env).Attended := by
  have ticked := tick_ticked env w
  generalize w.tick env = w' at ticked
  cases ticked with
  | rest h => exact hw
  | @dropStep i rest h idle =>
    refine hw.drop (fun k t ht ready mem => ?_) fun _ _ _ _ _ _ _ _ j _ mem => ?_
    · apply Turn.mem_rest h mem
      rintro ⟨⟩
      rcases idle t.state (state?_of_thread ht) with ⟨_, same⟩ | ⟨_, same⟩ | ⟨_, _, _, _, same⟩ <;>
        simp [same, ThreadState.Ready] at ready
    · exact Turn.mem_rest h mem nofun
  | @dropReport i rest h idle =>
    refine hw.drop (fun k t ht ready mem => ?_) fun k t ht _ _ _ _ hs j owes mem => ?_
    · exact Turn.mem_rest h mem nofun
    · apply Turn.mem_rest h mem
      rintro ⟨⟩
      obtain ⟨-, t', ht', isChild, -⟩ := owes
      exact idle t' k ht' isChild _ _ _ _ (hs ▸ state?_of_thread ht)
  | answer h state answered => exact hw.go h
  | expand h state expands => exact hw.go h
  | @wait i rest next h state =>
    refine hw.setState ?_ ?_ ?_ ?_ ?_
    · simp [ThreadState.Ready]
    · exact fun k other mem => Turn.mem_rest h mem (by simpa using other)
    · exact fun _ _ _ j _ mem => Turn.mem_rest h mem nofun
    · simp [ThreadState.IsFinished]
    · rintro _ _ _ _ _ _ ⟨⟩
  | notifyNone h state none => exact hw.go h
  | spawn h thread state some => exact hw.spawn h thread some
  | @stop i rest t r h thread state =>
    have later : ∀ turn ∈ w.turns, turn ≠ .step i →
        turn ∈ if t.parent.isSome then rest ++ [Turn.report i] else rest := by
      intro turn mem other
      have mem := Turn.mem_rest h mem other
      split
      · exact List.mem_append_left _ mem
      · exact mem
    refine hw.setState ?_ ?_ ?_ ?_ ?_
    · simp [ThreadState.Ready]
    · exact fun k other mem => later _ mem (by simpa using other)
    · exact fun _ _ _ j _ mem => later _ mem nofun
    · intro t' ht' _
      rw [thread] at ht'
      cases ht'
      cases t.parent <;> simp
    · rintro _ _ _ _ _ _ ⟨⟩
  | join h state => exact hw.go h
  | hear h thread isChild state => exact hw.hear h thread isChild state

theorem Attended.start {w : World σ} (hw : w.Attended) (p : Task σ) : (w.start p).1.Attended := by
  apply hw.append (List.subset_append_left _ _)
  intro k t ht
  obtain ⟨rfl, rfl⟩ : k = 0 ∧ t = { state := .running p, root := w.threads.length } := by
    cases k with
    | zero => simpa [eq_comm] using ht
    | succ k => simp at ht
  exact ⟨⟨p, rfl⟩, by simp⟩

theorem Attended.cancel {w : World σ} (hw : w.Attended) (root : Nat) : (w.cancel root).Attended := by
  have threads : (w.cancel root).threads = w.threads.map (Thread.cancelled root) := rfl
  have continues : w.Continues (w.cancel root) := by
    refine ⟨fun j t ht => ⟨t.cancelled root, by simp [threads, ht], ?_⟩⟩
    exact ⟨t.cancelled_parent root, t.cancelled_root root, fun ended => .inl (t.finished_of_cancelled ended)⟩
  constructor
  · intro k t ht ready
    rw [threads, List.getElem?_map, Option.map_eq_some_iff] at ht
    obtain ⟨t, ht, rfl⟩ := ht
    rcases t.ready_of_cancelled ready with already | ⟨hit, woken⟩
    · exact List.mem_append_left _ (hw.due k t ht already)
    · refine List.mem_append_right _ (List.mem_filterMap.2 ⟨(t, k), ?_, by simp [hit, woken]⟩)
      simpa [List.mem_zipIdx_iff_getElem?] using ht
  · intro k t ht children missing broken next hs
    rw [threads, List.getElem?_map, Option.map_eq_some_iff] at ht
    obtain ⟨t, ht, rfl⟩ := ht
    obtain ⟨_, joining⟩ := t.joining_of_cancelled hs
    rw [t.cancelled_root]
    exact continues.accounted (hw.accounted k t ht _ _ _ _ joining) fun _ _ mem =>
      List.mem_append_left _ mem

theorem Attended.act {w : World σ} (hw : w.Attended) (env : Surroundings σ) (a : Act σ) :
    (w.act env a).Attended := by
  cases a with
  | receive m => exact hw.start _
  | perform script => exact hw.start _
  | answer i x =>
    simp only [World.act]
    split
    · refine hw.setState (fun _ => by simp) ?_ ?_ ?_ ?_
      · exact fun _ _ mem => List.mem_append_left _ mem
      · exact fun _ _ _ _ _ mem => List.mem_append_left _ mem
      · exact fun _ _ finished => absurd finished (ThreadState.not_isFinished_running _)
      · rintro _ _ _ _ _ _ ⟨⟩
    · exact hw
  | cancel root => exact hw.cancel root
  | arrange turns =>
    simp only [World.act]
    split
    case isTrue perm =>
      exact hw.drop (fun _ _ _ _ mem => perm.mem_iff.2 mem) fun _ _ _ _ _ _ _ _ _ _ mem =>
        perm.mem_iff.2 mem
    case isFalse => exact hw
  | adjust change => exact ⟨hw.due, hw.accounted⟩

variable {env : Surroundings σ} {permitted : Act σ → Prop} {first w : World σ} {h : List Entry}

theorem Reaches.attended (start : first.Attended) (run : Reaches env permitted first h w) :
    w.Attended := by
  induction run with
  | start => exact start
  | tick run ih => exact ih.tick env
  | act run a ha ih => exact ih.act env a

/-- The thread was started by the host, or on behalf of this one that was. -/
def root? (w : World σ) (i : Nat) : Option Nat := (w.threads[i]?).map (·.root)

@[simp] theorem root?_setState (w : World σ) (i j : Nat) (st : ThreadState σ) :
    (w.setState i st).root? j = w.root? j := by
  simp only [root?, threads_setState, Option.map_map]
  congr 1
  funext t
  simp only [Function.comp]
  split <;> rfl

theorem root?_append {w : World σ} {i root : Nat} (h : w.root? i = some root)
    (ts : List (Thread σ)) : ((w.threads ++ ts)[i]?).map (·.root) = some root := by
  obtain ⟨t, ht, rfl⟩ := Option.map_eq_some_iff.1 h
  rw [List.getElem?_append_left (List.getElem?_eq_some_iff.1 ht).1, ht]
  rfl

theorem root?_tick {i root : Nat} (h : w.root? i = some root) : (w.tick env).root? i = some root := by
  have ticked := tick_ticked env w
  generalize w.tick env = w' at ticked
  cases ticked with
  | rest | dropStep | dropReport => exact h
  | spawn => exact root?_append ((root?_setState _ _ _ _).trans h) _
  | answer | expand | wait | notifyNone | stop | join | hear => exact (root?_setState _ _ _ _).trans h

theorem root?_act {i root : Nat} (h : w.root? i = some root) (a : Act σ) :
    (w.act env a).root? i = some root := by
  cases a with
  | receive m | perform script => exact root?_append h _
  | answer j x =>
    simp only [World.act]
    split
    · exact (root?_setState _ _ _ _).trans h
    · exact h
  | cancel other =>
    obtain ⟨t, ht, rfl⟩ := Option.map_eq_some_iff.1 h
    simp only [World.act, World.cancel, root?, List.getElem?_map, ht, Option.map_some]
    split <;> rfl
  | arrange turns =>
    simp only [World.act]
    split <;> exact h
  | adjust change => exact h

theorem entryOf_ne_received (env : Surroundings σ) (s : Shared σ) (i j : Nat) (r : EngineRequest σ) :
    entryOf env s i r ≠ some (.received j) := by
  unfold entryOf
  split
  · split <;> simp
  · simp
  · split <;> simp
  · simp
  · simp

theorem nextEntry_ne_received (w : World σ) (i : Nat) : w.nextEntry env ≠ some (.received i) := by
  intro noted
  unfold nextEntry at noted
  split at noted
  · split at noted
    · exact absurd noted (entryOf_ne_received _ _ _ _ _)
    · cases noted
  · cases noted

theorem Reaches.root? (run : Reaches env permitted first h w) {i : Nat}
    (received : .received i ∈ h) : w.root? i = some i := by
  induction run with
  | start => cases received
  | @tick h w run ih =>
    refine root?_tick (ih ((List.mem_append.1 received).resolve_left fun mem => ?_))
    exact nextEntry_ne_received w i (Option.mem_toList.1 mem)
  | @act h w run a ha ih =>
    rcases List.mem_append.1 received with now | before
    · cases a <;> simp [entryOfAct] at now
      subst now
      simp [World.act, World.root?, World.start]
    · exact root?_act (ih before) a

/-- One of the threads of a root has a turn. -/
def HasTurn (w : World σ) (root : Nat) : Prop := ∃ turn ∈ w.turns, w.root? turn.thread = some root

/-- A thread that the host started has ended, or it goes on: it or one of its own tasks has a turn or
waits for the host. -/
theorem Attended.goes_on {w : World σ} (hw : w.Attended) {i root : Nat} (own : w.root? i = some root) :
    (∃ r, w.finish? i = some r) ∨ w.HasTurn root ∨ ∃ waiting, w.waitingFor? root = some waiting := by
  obtain ⟨t, ht, rfl⟩ := Option.map_eq_some_iff.1 own
  by_contra stuck
  simp only [not_or] at stuck
  obtain ⟨unfinished, idle, nobody⟩ := stuck
  replace nobody : w.waitingFor? t.root = none := Option.eq_none_iff_forall_ne_some.2 fun x hx =>
    nobody ⟨x, hx⟩
  have isFinished : t.state.IsFinished := by
    clear own unfinished
    -- the tasks that a thread waits for were started after it
    induction left : w.threads.length - i using Nat.strong_induction_on generalizing i t with
    | _ left ih =>
      have idle_step : Turn.step i ∉ w.turns := fun due => idle ⟨_, due, by simp [Turn.thread, root?, ht]⟩
      cases hs : t.state with
      | finished r => exact ⟨r, rfl⟩
      | running p => exact absurd (hw.due i t ht (.inl ⟨p, hs⟩)) idle_step
      | waiting next =>
        have passed := List.findSome?_eq_none_iff.1 nobody (t, i)
          (by simpa [List.mem_zipIdx_iff_getElem?] using ht)
        simp [hs] at passed
      | joining children missing cancelled next =>
        cases missing with
        | zero => exact absurd (hw.due i t ht (.inr ⟨_, _, _, hs⟩)) idle_step
        | succ missing =>
          obtain ⟨owing, -, count, owes⟩ := hw.accounted i t ht _ _ _ _ hs
          obtain ⟨j, others, rfl⟩ := List.exists_cons_of_length_eq_add_one count
          obtain ⟨later, t', ht', -, same, reports⟩ := owes j List.mem_cons_self
          have hj := (List.getElem?_eq_some_iff.1 ht').1
          rw [← same] at idle nobody
          have ended := ih (w.threads.length - j) (by omega) t' ht' idle nobody rfl
          exact absurd ⟨_, reports ended, by simp [Turn.thread, root?, ht']⟩ idle
  obtain ⟨r, hr⟩ := isFinished
  exact unfinished ⟨r, by simp [finish?, state?_of_thread ht, hr]⟩

end World
end ChatCommands
