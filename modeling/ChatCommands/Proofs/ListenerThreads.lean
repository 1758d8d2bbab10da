import Mathlib
import ChatCommands.Proofs.RunRecord
import ChatCommands.Proofs.WorldRest

set_option autoImplicit false

/-!
# Threads of listeners

A thread that notifies listeners has one thread begin for each of them, and goes
on only when it has been told of all. What it is told then is what these threads
have ended with, each of them before: a thread that waits for its own is counted
as missing by it from its start until its report has arrived.
-/
namespace ChatCommands
variable {σ : Type}

namespace World

def parent? (w : World σ) (i : Nat) : Option Nat := (w.threads[i]?).bind (·.parent)

/-- The thread has not ended, or its parent has yet to be told. -/
def Pending (w : World σ) (j : Nat) : Prop :=
  (∀ r, w.state? j ≠ some (.finished r)) ∨ .report j ∈ w.turns

/-- Whoever waits for its own threads counts all as missing that are pending, and each of these is
waited for. -/
structure Joined (w : World σ) : Prop where
  reported : ∀ j, .report j ∈ w.turns → ∃ r, w.state? j = some (.finished r)
  once : ∀ j, w.turns.count (.report j) ≤ 1
  awaited : ∀ i j, w.parent? j = some i → w.Pending j → ∃ children missing cancelled next,
    w.state? i = some (.joining children missing cancelled next) ∧ j ∈ children
  counted : ∀ i children missing cancelled next,
    w.state? i = some (.joining children missing cancelled next) → cancelled = false ∧
      ∃ pending : List Nat, pending.length ≤ missing ∧ ∀ j ∈ children, w.Pending j → j ∈ pending

theorem joined_of_empty {w : World σ} (threads : w.threads = []) (turns : w.turns = []) : w.Joined where
  reported j h := by simp [turns] at h
  once j := by simp [turns]
  awaited i j h := by simp [parent?, threads] at h
  counted i children missing cancelled next h := by simp [state?_eq, threads] at h

variable {w : World σ} {i : Nat} {st st' : ThreadState σ} {turns : List Turn} {shared : Shared σ}

theorem parent?_setState (w : World σ) (i j : Nat) (st : ThreadState σ) :
    (w.setState i st).parent? j = w.parent? j := by
  unfold parent?
  rw [threads_setState, Option.bind_map]
  congr 1
  funext t
  simp only [Function.comp]
  split <;> rfl

theorem Joined.drop (hw : w.Joined) (sub : turns ⊆ w.turns)
    (once : ∀ j, turns.count (.report j) ≤ 1) : { w with turns, shared }.Joined where
  reported j h := hw.reported j (sub h)
  once := once
  awaited i j child pending := hw.awaited i j child (pending.imp id (sub ·))
  counted i children missing cancelled next hs := by
    obtain ⟨whole, pending, few, all⟩ := hw.counted i _ _ _ _ hs
    exact ⟨whole, pending, few, fun j hj h => all j hj (h.imp id (sub ·))⟩

theorem Joined.setState (hw : w.Joined) (state : w.state? i = some st)
    (unfinished : ∀ r, st ≠ .finished r)
    (reports : ∀ j, .report j ∈ turns → .report j ∈ w.turns ∨ j = i ∧ ∃ r, st' = .finished r)
    (once : ∀ j, turns.count (.report j) ≤ 1)
    (awaits : ∀ j, w.parent? j = some i → w.Pending j → ∃ children missing cancelled next,
      st' = .joining children missing cancelled next ∧ j ∈ children)
    (counts : ∀ children missing cancelled next, st' = .joining children missing cancelled next →
      cancelled = false ∧ ∃ pending : List Nat, pending.length ≤ missing ∧
        ∀ j ∈ children, { w.setState i st' with turns, shared }.Pending j → j ∈ pending) :
    { w.setState i st' with turns, shared }.Joined := by
  have changed : { w.setState i st' with turns, shared }.state? i = some st' :=
    (state?_setState w i i st').trans (by simp [state])
  have same : ∀ j ≠ i, { w.setState i st' with turns, shared }.state? j = w.state? j := fun j hj =>
    (state?_setState w i j st').trans (if_neg hj.symm)
  have before : ∀ j, { w.setState i st' with turns, shared }.Pending j → w.Pending j := by
    intro j pending
    by_cases hj : j = i
    · subst hj
      exact .inl fun r hr => unfinished r (Option.some.inj (state.symm.trans hr))
    · refine pending.imp (fun h r => same j hj ▸ h r) fun h => ?_
      exact (reports j h).resolve_right fun own => hj own.1
  constructor
  · intro j h
    rcases reports j h with h | ⟨rfl, r, rfl⟩
    · obtain ⟨r, hr⟩ := hw.reported j h
      have hj : j ≠ i := by
        rintro rfl
        exact unfinished r (Option.some.inj (state.symm.trans hr))
      exact ⟨r, (same j hj).trans hr⟩
    · exact ⟨r, changed⟩
  · exact once
  · intro k j later pending
    have child : w.parent? j = some k := (parent?_setState w i j st').symm.trans later
    by_cases hk : k = i
    · subst hk
      obtain ⟨children, missing, cancelled, next, rfl, hj⟩ := awaits j child (before j pending)
      exact ⟨_, _, _, _, changed, hj⟩
    · obtain ⟨children, missing, cancelled, next, hs, hj⟩ := hw.awaited k j child (before j pending)
      exact ⟨_, _, _, _, (same k hk).trans hs, hj⟩
  · intro k children missing cancelled next hs
    by_cases hk : k = i
    · subst hk
      exact counts _ _ _ _ (Option.some.inj (changed.symm.trans hs))
    · obtain ⟨whole, pending, few, all⟩ := hw.counted k _ _ _ _ ((same k hk).symm.trans hs)
      exact ⟨whole, pending, few, fun j hj h => all j hj (before j h)⟩

/-- A thread that does not wait for its own has none that are pending. -/
theorem Joined.not_awaited (hw : w.Joined) (state : w.state? i = some st)
    (busy : ∀ children missing cancelled next, st ≠ .joining children missing cancelled next) {j : Nat}
    (child : w.parent? j = some i) : ¬ w.Pending j := by
  intro pending
  obtain ⟨_, _, _, _, hs, -⟩ := hw.awaited i j child pending
  exact busy _ _ _ _ (Option.some.inj (state.symm.trans hs))

theorem Joined.go (hw : w.Joined) {p : Task σ} (state : w.state? i = some (.running p))
    (other : (∀ r, st' ≠ .finished r) ∧ ∀ children missing cancelled next,
      st' ≠ .joining children missing cancelled next)
    (sub : turns ⊆ w.turns) (once : ∀ j, turns.count (.report j) ≤ 1) :
    { w.setState i st' with turns, shared }.Joined :=
  hw.setState state (by simp) (fun _ h => .inl (sub h)) once
    (fun _ child pending => absurd pending (hw.not_awaited state (by simp) child))
    fun _ _ _ _ h => absurd h (other.2 _ _ _ _)

/-- Threads may be added that run and for which their parents wait already. -/
theorem Joined.append (hw : w.Joined) {ts : List (Thread σ)}
    (reports : ∀ j, turns.count (.report j) = w.turns.count (.report j))
    (run : ∀ t ∈ ts, ∃ p, t.state = .running p)
    (awaits : ∀ k t i, ts[k]? = some t → t.parent = some i → ∃ children missing cancelled next,
      w.state? i = some (.joining children missing cancelled next) ∧
        w.threads.length + k ∈ children) :
    { w with threads := w.threads ++ ts, turns, shared }.Joined := by
  have old : ∀ j < w.threads.length,
      { w with threads := w.threads ++ ts, turns, shared }.state? j = w.state? j := by
    intro j hj
    rw [state?_eq, state?_eq, List.getElem?_append_left hj]
  have new : ∀ j st, w.threads.length ≤ j →
      { w with threads := w.threads ++ ts, turns, shared }.state? j = some st →
        ∃ p, st = .running p := by
    intro j st hj hs
    obtain ⟨t, ht, rfl⟩ := exists_thread hs
    rw [List.getElem?_append_right hj] at ht
    exact run t (List.mem_of_getElem? ht)
  have mem : ∀ j, Turn.report j ∈ turns ↔ Turn.report j ∈ w.turns := by
    intro j
    rw [← List.count_pos_iff, ← List.count_pos_iff, reports]
  have before : ∀ j, { w with threads := w.threads ++ ts, turns, shared }.Pending j → w.Pending j := by
    intro j pending
    rcases Nat.lt_or_ge j w.threads.length with hj | hj
    · exact pending.imp (fun h r => old j hj ▸ h r) (mem j).1
    · exact .inl fun r hr => by simp [state?_eq_none_iff.2 hj] at hr
  constructor
  · intro j h
    obtain ⟨r, hr⟩ := hw.reported j ((mem j).1 h)
    exact ⟨r, (old j (lt_of_state? hr)).trans hr⟩
  · intro j
    exact (reports j).trans_le (hw.once j)
  · intro i j hp pending
    rcases Nat.lt_or_ge j w.threads.length with hj | hj
    · have hp : w.parent? j = some i := by
        rwa [parent?, List.getElem?_append_left hj] at hp
      obtain ⟨children, missing, cancelled, next, hs, mem⟩ := hw.awaited i j hp (before j pending)
      exact ⟨_, _, _, _, (old i (lt_of_state? hs)).trans hs, mem⟩
    · rw [parent?, List.getElem?_append_right hj, Option.bind_eq_some_iff] at hp
      obtain ⟨t, ht, hp⟩ := hp
      obtain ⟨children, missing, cancelled, next, hs, mem⟩ := awaits _ t i ht hp
      rw [Nat.add_sub_cancel' hj] at mem
      exact ⟨_, _, _, _, (old i (lt_of_state? hs)).trans hs, mem⟩
  · intro i children missing cancelled next hs
    rcases Nat.lt_or_ge i w.threads.length with hi | hi
    · obtain ⟨whole, pending, few, all⟩ := hw.counted i _ _ _ _ ((old i hi).symm.trans hs)
      exact ⟨whole, pending, few, fun j hj h => all j hj (before j h)⟩
    · obtain ⟨p, ⟨⟩⟩ := new i _ hi hs

theorem count_report_le {rest : List Turn} {first : Turn} (hw : w.Joined) (h : w.turns = first :: rest)
    (j : Nat) : rest.count (.report j) ≤ 1 :=
  ((List.sublist_cons_self first rest).count_le _).trans (h ▸ hw.once j)

theorem Joined.spawn (hw : w.Joined) {rest : List Turn} {root : Nat} {p : Task σ}
    {tasks : List (Engine σ (Except Fault Value))}
    {next : Except Fault (List (Except Fault Value)) → Task σ} (h : w.turns = .step i :: rest)
    (state : w.state? i = some (.running p)) :
    ({ w with turns := rest }.spawn i root tasks next).Joined := by
  let children := List.range' w.threads.length tasks.length
  have joins : { w.setState i (.joining children children.length false next) with
      turns := rest, shared := w.shared }.Joined := by
    refine hw.setState state (by simp) ?_ (count_report_le hw h) ?_ ?_
    · exact fun j mem => .inl (h ▸ List.mem_cons_of_mem _ mem)
    · exact fun j child pending => absurd pending (hw.not_awaited state (by simp) child)
    · rintro _ _ _ _ ⟨⟩
      exact ⟨rfl, children, le_rfl, fun j hj _ => hj⟩
  have noReport : ∀ j, (children.map Turn.step).count (.report j) = 0 := fun j =>
    List.count_eq_zero.2 fun mem => by simp at mem
  refine Joined.append joins ?_ ?_ ?_
  · intro j
    change (rest ++ children.map Turn.step).count (.report j) = rest.count (.report j)
    rw [List.count_append, noReport, Nat.add_zero]
  · intro t ht
    obtain ⟨p, -, rfl⟩ := List.mem_map.1 ht
    exact ⟨_, rfl⟩
  · intro k t parent ht isChild
    obtain ⟨q, hq, rfl⟩ := List.getElem?_map .. ▸ ht |> Option.map_eq_some_iff.1
    cases isChild
    have hk : k < tasks.length := (List.getElem?_eq_some_iff.1 hq).1
    refine ⟨children, children.length, false, next,
      (state?_setState w i i _).trans (by simp [state]), ?_⟩
    exact List.mem_range'_1.2 (by simp; omega)

theorem Joined.hear (hw : w.Joined) {j : Nat} {rest : List Turn} {t : Thread σ} {children : List Nat}
    {missing : Nat} {cancelled : Bool} {next : Except Fault (List (Except Fault Value)) → Task σ}
    (h : w.turns = .report j :: rest) (thread : w.threads[j]? = some t) (isChild : t.parent = some i)
    (state : w.state? i = some (.joining children (missing + 1) cancelled next)) :
    { w.setState i (.joining children missing cancelled next) with
      turns := if missing = 0 then rest ++ [Turn.step i] else rest }.Joined := by
  have reports : ∀ k, (if missing = 0 then rest ++ [Turn.step i] else rest).count (.report k) =
      rest.count (.report k) := by
    intro k
    split <;> simp [List.count_append]
  have mem : ∀ k, .report k ∈ (if missing = 0 then rest ++ [Turn.step i] else rest) → .report k ∈ rest := by
    intro k hk
    rwa [← List.count_pos_iff, reports, List.count_pos_iff] at hk
  have once : .report j ∉ rest := by
    have all := hw.once j
    rw [h, List.count_cons_self] at all
    exact List.count_eq_zero.1 (by omega)
  have due : .report j ∈ w.turns := h ▸ List.mem_cons_self
  have child : w.parent? j = some i := by simp [parent?, thread, isChild]
  obtain ⟨whole, pending, few, all⟩ := hw.counted i _ _ _ _ state
  have awaited : j ∈ children := by
    obtain ⟨_, _, _, _, hs, hj⟩ := hw.awaited i j child (.inr due)
    cases state.symm.trans hs
    exact hj
  refine hw.setState state (by simp) (fun k hk => .inl (h ▸ List.mem_cons_of_mem _ (mem k hk)))
    (fun k => (reports k).trans_le (count_report_le hw h k)) ?_ ?_
  · intro k hk waits
    obtain ⟨_, _, _, _, hs, hk⟩ := hw.awaited i k hk waits
    cases state.symm.trans hs
    exact ⟨_, _, _, _, rfl, hk⟩
  · rintro _ _ _ _ ⟨⟩
    refine ⟨whole, pending.erase j, ?_, fun k hk waits => ?_⟩
    · rw [List.length_erase_of_mem (all j awaited (.inr due))]
      omega
    · obtain ⟨r, finished⟩ := hw.reported j due
      -- the one that has reported is no longer pending, since it reports only once
      have other : k ≠ j := by
        rintro rfl
        have hne : i ≠ k := by
          rintro rfl
          cases state.symm.trans finished
        rcases waits with unfinished | reports
        · exact unfinished r ((state?_setState w i k _).trans (by rw [if_neg hne, finished]))
        · exact once (mem k reports)
      rw [List.mem_erase_of_ne other]
      refine all k hk (waits.imp (fun unfinished r hr => ?_) fun reports => ?_)
      · have hne : i ≠ k := by
          rintro rfl
          cases state.symm.trans hr
        exact unfinished r ((state?_setState w i k _).trans (by rw [if_neg hne, hr]))
      · exact h ▸ List.mem_cons_of_mem _ (mem k reports)

theorem Joined.stop (hw : w.Joined) {rest : List Turn} {r : Finish} {isChild : Bool}
    (h : w.turns = .step i :: rest) (state : w.state? i = some (.running (.done r))) :
    { w.setState i (.finished r) with
      turns := if isChild then rest ++ [Turn.report i] else rest }.Joined := by
  have fresh : .report i ∉ w.turns := by
    intro reported
    obtain ⟨r, hr⟩ := hw.reported i reported
    cases state.symm.trans hr
  refine hw.setState state (by simp) ?_ ?_ ?_ (by simp)
  · intro j hj
    split at hj
    case isTrue =>
      rcases List.mem_append.1 hj with old | new
      · exact .inl (h ▸ List.mem_cons_of_mem _ old)
      · obtain ⟨⟩ := List.mem_singleton.1 new
        exact .inr ⟨rfl, r, rfl⟩
    case isFalse => exact .inl (h ▸ List.mem_cons_of_mem _ hj)
  · intro j
    split
    case isTrue =>
      rw [List.count_append]
      by_cases hj : j = i
      · subst hj
        have none : rest.count (.report j) = 0 :=
          List.count_eq_zero.2 fun mem => fresh (h ▸ List.mem_cons_of_mem _ mem)
        simp [none]
      · simpa [Ne.symm hj] using count_report_le hw h j
    case isFalse => exact count_report_le hw h j
  · exact fun j child pending => absurd pending (hw.not_awaited state (by simp) child)

theorem Joined.tick (hw : w.Joined) (env : Surroundings σ) : (w.tick env).Joined := by
  have ticked := tick_ticked env w
  generalize w.tick env = w' at ticked
  have goes : ∀ {p : Task σ}, (∀ r, ThreadState.running p ≠ .finished r) ∧
      ∀ children missing cancelled next, ThreadState.running p ≠ .joining children missing cancelled next :=
    ⟨by simp, by simp⟩
  cases ticked with
  | rest h => exact hw
  | dropStep h idle | dropReport h idle =>
    exact hw.drop (h ▸ List.subset_cons_self _ _) (count_report_le hw h)
  | answer h state answered => exact hw.go state goes (List.Subset.refl _) hw.once
  | expand h state expands => exact hw.go state goes (List.Subset.refl _) hw.once
  | notifyNone h state none => exact hw.go state goes (List.Subset.refl _) hw.once
  | wait h state =>
    exact hw.go state ⟨by simp, by simp⟩ (h ▸ List.subset_cons_self _ _) (count_report_le hw h)
  | spawn h thread state some => exact hw.spawn h (state ▸ state?_of_thread thread)
  | stop h thread state => exact hw.stop h (state ▸ state?_of_thread thread)
  | @join i rest children cancelled next h state =>
    refine hw.setState state (by simp) (fun j hj => .inl hj) hw.once ?_ (by simp)
    intro j child pending
    obtain ⟨_, _, _, _, hs, hj⟩ := hw.awaited i j child pending
    cases state.symm.trans hs
    -- none of its own is pending, or the count of the missing ones would not be zero
    obtain ⟨-, all, few, counted⟩ := hw.counted i _ _ _ _ state
    obtain rfl := List.eq_nil_of_length_eq_zero (Nat.le_zero.1 few)
    cases counted j hj pending
  | hear h thread isChild state => exact hw.hear h thread isChild state

theorem Joined.act (hw : w.Joined) (env : Surroundings σ) {a : Act σ} (ha : a.Patient) :
    (w.act env a).Joined := by
  have started : ∀ p : Task σ, (w.start p).1.Joined := by
    intro p
    refine hw.append (fun j => by simp [List.count_append]) ?_ ?_
    · intro t ht
      obtain rfl := List.mem_singleton.1 ht
      exact ⟨p, rfl⟩
    · intro k t i ht hp
      obtain rfl := List.mem_singleton.1 (List.mem_of_getElem? ht)
      cases hp
  cases a with
  | receive m => exact started _
  | perform script => exact started _
  | answer i x =>
    simp only [World.act]
    split
    case h_1 next state =>
      refine hw.setState state (by simp) ?_ ?_ ?_ (by simp)
      · exact fun j hj => .inl (by simpa using hj)
      · exact fun j => by simpa [List.count_append] using hw.once j
      · exact fun j child pending => absurd pending (hw.not_awaited state (by simp) child)
    case h_2 => exact hw
  | cancel root => exact ha.elim
  | arrange turns =>
    simp only [World.act]
    split
    case isTrue perm => exact hw.drop perm.subset fun j => (perm.count_eq _).trans_le (hw.once j)
    case isFalse => exact hw
  | adjust change => exact hw.drop (List.Subset.refl _) hw.once

end World
end ChatCommands
