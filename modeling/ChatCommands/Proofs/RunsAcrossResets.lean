import Mathlib
import ChatCommands.Proofs.RunLedger

set_option autoImplicit false

/-!
# Runs that go on past a reset

A tracker counts runs by the command's name alone. A reset drops the counts while
runs go on, and the end of such a run is then taken off the count of those that
were begun since. So the count never exceeds the runs that were begun since the last
reset and go on, and falls short of them by at most the ends of older runs.
-/
namespace ChatCommands

/-- What is done to a tracker. A move has the number of moves before it, and the end of a run names
the number of its start. -/
inductive Move where
  | begin (name : String)
  | finish (start : Nat) (name : String)
  | record (command : Definition)
  | reset
  | tick (now : Binary64)
  deriving DecidableEq

namespace Move

def begins (n : String) : Move → Bool
  | .begin name => name = n
  | _ => false

def ends (n : String) : Move → Bool
  | .finish _ name => name = n
  | _ => false

end Move

/-- The clock after some moves, the latest of them first. -/
def reading (start : Binary64) : List Move → Binary64
  | [] => start
  | .tick now :: _ => now
  | _ :: h => reading start h

namespace Tracker
variable {t : Tracker} {start now : Binary64} {h : List Move} {m : Move} {n : String} {i k : Nat}

def move (t : Tracker) (now : Binary64) : Move → Tracker
  | .begin name => t.begin name
  | .finish _ name => t.finish name
  | .record command => t.record now command
  | .reset => t.reset
  | .tick _ => t

/-- The tracker after some moves, the latest of them first. -/
def played (t : Tracker) (start : Binary64) : List Move → Tracker
  | [] => t
  | m :: h => (t.played start h).move (reading start h) m

/-- Each end belongs to an earlier start that has not ended. -/
def Paired : List Move → Prop
  | [] => True
  | .finish i name :: h => Paired h ∧ h.reverse[i]? = some (.begin name) ∧ .finish i name ∉ h
  | _ :: h => Paired h

/-- A run that was begun since the last reset goes on. -/
def Unfinished (n : String) (h : List Move) : Prop :=
  ∃ later earlier, h = later ++ .begin n :: earlier ∧ .reset ∉ later ∧ .finish earlier.length n ∉ later

/-- Since the last reset a run has ended that was begun before it. -/
def Straddled (n : String) (h : List Move) : Prop :=
  ∃ later i earlier, h = later ++ .finish i n :: earlier ∧ .reset ∉ later ∧
    ∀ between before, earlier = between ++ .begin n :: before → before.length = i → .reset ∈ between

/-- The runs that were begun since the last reset and go on. -/
def openSince : List Move → List (Nat × String)
  | [] => []
  | .begin name :: h => (h.length, name) :: openSince h
  | .finish i name :: h => (openSince h).erase (i, name)
  | .reset :: _ => []
  | _ :: h => openSince h

def openCount (n : String) (h : List Move) : Nat := (openSince h).countP (·.2 = n)

/-- How many ends since the last reset are not of runs that were begun since. -/
def strayEnds (n : String) : List Move → Nat
  | [] => 0
  | .finish i name :: h => strayEnds n h + if name = n ∧ (i, name) ∉ openSince h then 1 else 0
  | .reset :: _ => 0
  | _ :: h => strayEnds n h

section Counter

@[simp] theorem move_window (t : Tracker) (now : Binary64) (m : Move) : (t.move now m).window = t.window := by
  cases m <;> rfl

@[simp] theorem move_countsInFlight (t : Tracker) (now : Binary64) (m : Move) :
    (t.move now m).countsInFlight = t.countsInFlight := by
  cases m <;> rfl

@[simp] theorem played_window : (t.played start h).window = t.window := by
  induction h with
  | nil => rfl
  | cons m h ih => simp [played, ih]

@[simp] theorem played_countsInFlight : (t.played start h).countsInFlight = t.countsInFlight := by
  induction h with
  | nil => rfl
  | cons m h ih => simp [played, ih]

end Counter

section Excess

/-- Somewhere since the last reset there is a point from which on so many more runs of the name were
begun than ended. -/
def Exceeds (n : String) (k : Nat) (h : List Move) : Prop :=
  ∃ later earlier, h = later ++ earlier ∧ .reset ∉ later ∧ k + later.countP (Move.ends n) ≤
    later.countP (Move.begins n)

theorem exceeds_cons_iff (n : String) (k : Nat) (m : Move) (h : List Move) :
    Exceeds n k (m :: h) ↔ k = 0 ∨ m ≠ .reset ∧ ∃ later earlier, h = later ++ earlier ∧ .reset ∉ later ∧
      k + (m :: later).countP (Move.ends n) ≤ (m :: later).countP (Move.begins n) := by
  constructor
  · rintro ⟨_ | ⟨m', later⟩, earlier, split, kept, excess⟩
    · exact .inl (by simpa using excess)
    · obtain ⟨rfl, rfl⟩ := List.cons.inj split
      exact .inr ⟨fun eq => kept (by simp [eq]), later, earlier, rfl,
        fun mem => kept (List.mem_cons_of_mem _ mem), excess⟩
  · rintro (rfl | ⟨goesOn, later, earlier, rfl, kept, excess⟩)
    · exact ⟨[], m :: h, rfl, by simp, by simp⟩
    · exact ⟨m :: later, earlier, rfl, by simpa [kept] using goesOn.symm, excess⟩

theorem exceeds_zero (n : String) (h : List Move) : Exceeds n 0 h := ⟨[], h, rfl, by simp, le_rfl⟩

theorem exceeds_cons_of_neither (goesOn : m ≠ .reset) (begins : m.begins n = false)
    (ends : m.ends n = false) : Exceeds n k (m :: h) ↔ Exceeds n k h := by
  rw [exceeds_cons_iff]
  simp only [goesOn, ne_eq, not_false_eq_true, true_and, List.countP_cons, begins, ends,
    Bool.false_eq_true, if_false, Nat.add_zero]
  exact or_iff_right_of_imp fun zero => zero ▸ exceeds_zero n h

theorem exceeds_succ_begin : Exceeds n (k + 1) (.begin n :: h) ↔ Exceeds n k h := by
  rw [exceeds_cons_iff]
  simp [Move.begins, Move.ends, Exceeds, Nat.add_right_comm k 1]

theorem exceeds_finish : Exceeds n k (.finish i n :: h) ↔ k = 0 ∨ Exceeds n (k + 1) h := by
  rw [exceeds_cons_iff]
  simp [Move.begins, Move.ends, Exceeds, Nat.add_assoc, Nat.add_comm 1]

/-- The count of a name is the largest number by which begun runs exceed ended ones since some point. -/
theorem le_running_iff (fresh : t.inFlight = []) :
    k ≤ (t.played start h).running n ↔ Exceeds n k h := by
  induction h generalizing k with
  | nil =>
    have none : (t.played start []).running n = 0 := by simp [played, running, fresh, Assoc.find?]
    simp [none, Exceeds]
  | cons m h ih =>
    rw [played]
    cases m with
    | begin name =>
      by_cases same : name = n
      · subst same
        cases k with
        | zero => simp [exceeds_zero]
        | succ k => rw [exceeds_succ_begin, ← ih, move, running_begin, if_pos rfl, Nat.add_le_add_iff_right]
      · rw [exceeds_cons_of_neither (m := .begin name) (by simp) (by simp [Move.begins, same]) rfl, ← ih,
          move, running_begin, if_neg same]
    | finish i name =>
      by_cases same : name = n
      · subst same
        rw [exceeds_finish, ← ih, move, running_finish, if_pos rfl]
        omega
      · rw [exceeds_cons_of_neither (m := .finish i name) (by simp) rfl (by simp [Move.ends, same]), ← ih,
          move, running_finish, if_neg same]
    | reset => simp [exceeds_cons_iff, move]
    | record command =>
      rw [exceeds_cons_of_neither (m := .record command) (by simp) rfl rfl, ← ih, move, running_record]
    | tick now => rw [exceeds_cons_of_neither (m := .tick now) (by simp) rfl rfl, ← ih, move]

end Excess

section OpenRuns

theorem fst_lt_of_mem_openSince {run : Nat × String} (mem : run ∈ openSince h) : run.1 < h.length := by
  induction h with
  | nil => cases mem
  | cons m h ih =>
    rw [List.length_cons]
    cases m with
    | begin name =>
      rcases List.mem_cons.1 mem with rfl | earlier
      · exact Nat.lt_succ_self _
      · exact Nat.lt_succ_of_lt (ih earlier)
    | finish i name => exact Nat.lt_succ_of_lt (ih (List.mem_of_mem_erase mem))
    | reset => cases mem
    | record command | tick now => exact Nat.lt_succ_of_lt (ih mem)

theorem openSince_nodup (h : List Move) : (openSince h).Nodup := by
  induction h with
  | nil => exact .nil
  | cons m h ih =>
    cases m with
    | begin name => exact List.nodup_cons.2 ⟨fun mem => (fst_lt_of_mem_openSince mem).false, ih⟩
    | finish i name => exact ih.erase _
    | reset => exact .nil
    | record command | tick now => exact ih

theorem mem_openSince_iff : (i, n) ∈ openSince h ↔ ∃ later earlier, h = later ++ .begin n :: earlier ∧
    earlier.length = i ∧ .reset ∉ later ∧ .finish i n ∉ later := by
  induction h with
  | nil => simp [openSince]
  | cons m h ih =>
    have step : (∃ later earlier, m :: h = later ++ .begin n :: earlier ∧ earlier.length = i ∧
        .reset ∉ later ∧ .finish i n ∉ later) ↔ (m = .begin n ∧ h.length = i) ∨
        (m ≠ .reset ∧ m ≠ .finish i n ∧ (i, n) ∈ openSince h) := by
      rw [ih]
      constructor
      · rintro ⟨_ | ⟨m', later⟩, earlier, split, number, kept, unended⟩
        · obtain ⟨rfl, rfl⟩ := List.cons.inj split
          exact .inl ⟨rfl, number⟩
        · obtain ⟨rfl, rfl⟩ := List.cons.inj split
          exact .inr ⟨fun eq => kept (by simp [eq]), fun eq => unended (by simp [eq]), later, earlier, rfl,
            number, fun mem => kept (List.mem_cons_of_mem _ mem),
            fun mem => unended (List.mem_cons_of_mem _ mem)⟩
      · rintro (⟨rfl, number⟩ | ⟨goesOn, other, later, earlier, rfl, number, kept, unended⟩)
        · exact ⟨[], h, rfl, number, by simp, by simp⟩
        · exact ⟨m :: later, earlier, rfl, number, by simpa [kept] using goesOn.symm,
            by simpa [unended] using other.symm⟩
    rw [step]
    cases m with
    | begin name => simp [openSince, eq_comm, and_comm]
    | finish j name =>
      simp only [openSince, (openSince_nodup h).mem_erase_iff]
      simp [eq_comm]
    | reset => simp [openSince]
    | record command | tick now => simp [openSince]

theorem unfinished_iff : Unfinished n h ↔ openCount n h ≠ 0 := by
  rw [openCount, ne_eq, List.countP_eq_zero]
  constructor
  · rintro ⟨later, earlier, split, kept, unended⟩ none
    exact none _ (mem_openSince_iff.2 ⟨later, earlier, split, rfl, kept, unended⟩) (by simp)
  · intro some
    push Not at some
    obtain ⟨⟨i, name⟩, mem, same⟩ := some
    obtain rfl : name = n := by simpa using same
    obtain ⟨later, earlier, split, rfl, kept, unended⟩ := mem_openSince_iff.1 mem
    exact ⟨later, earlier, split, kept, unended⟩

theorem openCount_begin (name n : String) (h : List Move) :
    openCount n (.begin name :: h) = openCount n h + if name = n then 1 else 0 := by
  simp [openCount, openSince, List.countP_cons]

theorem openCount_finish (i : Nat) (name n : String) (h : List Move) :
    openCount n h =
      openCount n (.finish i name :: h) + if name = n ∧ (i, name) ∈ openSince h then 1 else 0 := by
  by_cases mem : (i, name) ∈ openSince h
  · have counted := (List.perm_cons_erase mem).countP_eq (·.2 = n)
    rw [List.countP_cons] at counted
    simpa [openCount, openSince, mem] using counted
  · simp [openCount, openSince, mem, List.erase_of_not_mem]

/-- The count falls short of the runs that go on by at most the ends of older runs. -/
theorem running_bounds (start : Binary64) (h : List Move) (n : String) (fresh : t.inFlight = []) :
    (t.played start h).running n ≤ openCount n h ∧
      openCount n h ≤ (t.played start h).running n + strayEnds n h := by
  induction h with
  | nil =>
    have none : (t.played start []).running n = 0 := by simp [played, running, fresh, Assoc.find?]
    simp [none, openCount, openSince]
  | cons m h ih =>
    rw [played]
    cases m with
    | begin name =>
      have same : strayEnds n (.begin name :: h) = strayEnds n h := rfl
      rw [move, running_begin, openCount_begin, same]
      split <;> omega
    | finish i name =>
      have counted := openCount_finish i name n h
      rw [move, running_finish, strayEnds]
      by_cases same : name = n
      · by_cases mem : (i, name) ∈ openSince h <;> simp [same] at counted mem ⊢ <;>
          simp [mem] at counted ⊢ <;> omega
      · simp [same] at counted ⊢
        omega
    | reset => simp [move, openCount, openSince, strayEnds]
    | record command | tick now => exact ih

/-- If ends are paired with starts, a stray one is that of a run from before the last reset. -/
theorem straddled_of_strayEnds (paired : Paired h) (stray : strayEnds n h ≠ 0) : Straddled n h := by
  induction h with
  | nil => exact absurd rfl stray
  | cons m h ih =>
    have goOn (paired : Paired h) (goesOn : m ≠ .reset) (stray : strayEnds n h ≠ 0) :
        Straddled n (m :: h) := by
      obtain ⟨later, i, earlier, rfl, kept, before⟩ := ih paired stray
      exact ⟨m :: later, i, earlier, rfl, by simpa [kept] using goesOn.symm, before⟩
    cases m with
    | finish i name =>
      obtain ⟨paired, -, once⟩ := paired
      by_cases here : name = n ∧ (i, name) ∉ openSince h
      · obtain ⟨rfl, foreign⟩ := here
        refine ⟨[], i, h, rfl, by simp, ?_⟩
        rintro between before rfl number
        by_contra kept
        exact foreign (mem_openSince_iff.2 ⟨between, before, rfl, number, kept,
          fun mem => once (List.mem_append_left _ mem)⟩)
      · exact goOn paired nofun (by simpa [strayEnds, here] using stray)
    | reset => exact absurd rfl stray
    | begin name | record command | tick now => exact goOn paired nofun stray

end OpenRuns

/-- Since a reset the count of a name is what starts exceed ends by, which a run that is older than the
reset can make too small and nothing can make too large. -/
theorem counts_across_resets {t : Tracker} (enabled : 0 < t.window) (counts : t.countsInFlight = true)
    (fresh : t.inFlight = []) (start : Binary64) (h : List Move) (n : String) :
    ((t.played start h).isBlocked (reading start h) n = true ↔
      Exceeds n 1 h ∨ (t.played start h).isCooling (reading start h) n = true) ∧
    (t.played start h).running n ≤ openCount n h ∧
    openCount n h ≤ (t.played start h).running n + strayEnds n h ∧
    (Paired h → ¬ Straddled n h → Unfinished n h →
      (t.played start h).isBlocked (reading start h) n = true) := by
  have busy : (t.played start h).isBusy n = true ↔ 1 ≤ (t.played start h).running n := by
    simp [isBusy, isEnabled, enabled, counts, Nat.one_le_iff_ne_zero]
  obtain ⟨atMost, atLeast⟩ := running_bounds start h n fresh
  refine ⟨?_, atMost, atLeast, fun paired apart unfinished => ?_⟩
  · rw [isBlocked, Bool.or_eq_true, busy, le_running_iff fresh]
  · have none : strayEnds n h = 0 := by
      by_contra stray
      exact apart (straddled_of_strayEnds paired stray)
    have some := unfinished_iff.1 unfinished
    rw [isBlocked, Bool.or_eq_true, busy]
    exact .inl (by omega)

def oneSecond : Tracker where
  window := 1000
  countsInFlight := true

theorem counts_across_one_reset : 0 < oneSecond.window ∧
    (oneSecond.played default [.begin "go", .reset, .begin "go"]).isBlocked default "go" = true := by
  have enabled : 0 < oneSecond.window := by decide +kernel
  obtain ⟨-, -, -, blocked⟩ :=
    counts_across_resets enabled rfl rfl default [.begin "go", .reset, .begin "go"] "go"
  refine ⟨enabled, blocked trivial ?_ ⟨[], [.reset, .begin "go"], rfl, by simp, by simp⟩⟩
  rintro ⟨later, i, earlier, split, -⟩
  have ended : Move.finish i "go" ∈ [Move.begin "go", .reset, .begin "go"] := split ▸ by simp
  simp at ended

/-- The end of a run from before the reset takes the place of the run that was begun since. -/
theorem not_blocked_across_reset : ¬ ∀ (t : Tracker) (start : Binary64) (h : List Move) (n : String),
    0 < t.window → t.countsInFlight = true → t.inFlight = [] → Paired h → Unfinished n h →
      (t.played start h).isBlocked (reading start h) n = true := by
  intro blocked
  have paired : Paired [.finish 0 "go", .begin "go", .reset, .begin "go"] := ⟨trivial, rfl, by simp⟩
  have unfinished : Unfinished "go" [.finish 0 "go", .begin "go", .reset, .begin "go"] :=
    ⟨[.finish 0 "go"], [.reset, .begin "go"], rfl, by simp, by simp⟩
  have := blocked oneSecond default _ "go" (by decide +kernel) rfl rfl paired unfinished
  exact absurd this (by decide +kernel)

end Tracker
end ChatCommands
