import Mathlib
import ChatCommands.Proofs.Rounding
import ChatCommands.Proofs.RunLedger

set_option autoImplicit false

/-!
# Spacing of runs

If runs under way count, no two runs of a command are ever under way together.
And if the clock never goes back, a run that is admitted comes after the windows
of all runs that were completed before, not only of the last one. The time since
then is measured with a rounded difference, so that a window may end early by the
2 ^ 53-rd part of that time.
-/
namespace ChatCommands
open Binary64
variable {σ : Type}

def Entry.time? : Entry → Option Binary64
  | .refused _ _ t | .admitted _ _ t | .completed _ _ t => some t
  | _ => none

/-- The readings of the clock never go back. -/
def Steady (h : List Entry) : Prop :=
  h.Pairwise fun later earlier => ∀ t ∈ later.time?, ∀ t' ∈ earlier.time?, t' ≤ t

theorem lastRun?_latest {h : List Entry} {j : Nat} {c : Definition} {t : Binary64} (steady : Steady h)
    (completed : .completed j c t ∈ h) :
    ∃ run, lastRun? c.name h = some run ∧ (t = run.completed ∨ t ≤ run.completed) := by
  induction h with
  | nil => cases completed
  | cons e h ih =>
    obtain ⟨first, rest⟩ := List.pairwise_cons.1 steady
    rcases List.mem_cons.1 completed with rfl | earlier
    · exact ⟨⟨c, t⟩, by simp [lastRun?], .inl rfl⟩
    · cases e with
      | completed i c' t' =>
        rw [lastRun?]
        split
        · exact ⟨⟨c', t'⟩, rfl, .inr (first _ earlier t' rfl t rfl)⟩
        · exact ih rest earlier
      | _ => exact ih rest earlier

theorem apart_of_not_blocked {d : Dispatcher} {h : List Entry} {j : Nat} {c : Definition}
    {now t : Binary64} (enabled : 0 < d.tracker.window) (steady : Steady h)
    (free : ¬ Blocked d h c.name now) (completed : .completed j c t ∈ h) :
    (now.sub t).below d.tracker.window = false := by
  obtain ⟨run, last, latest⟩ := lastRun?_latest steady completed
  have apart : (now.sub run.completed).below d.tracker.window = false :=
    Bool.eq_false_iff.2 fun within => free ⟨enabled, .inr ⟨run, last, within⟩⟩
  rcases latest with rfl | before
  · exact apart
  · exact Binary64.sub_antitone enabled before apart

/-- If runs under way count, at most one run of a command is under way. -/
theorem Lawful.underWay_le_one {d : Dispatcher} {h : List Entry} (lawful : Lawful d h)
    (kept : .forgotten ∉ h) (enabled : 0 < d.tracker.window)
    (counts : d.options.trackInFlight = true) (n : String) : underWay n h ≤ 1 := by
  induction lawful with
  | nil => simp [underWay, openRuns]
  | @cons h e rest allowed ih =>
    have kept_rest : .forgotten ∉ h := fun mem => kept (List.mem_cons_of_mem _ mem)
    replace ih := ih kept_rest
    cases e with
    | admitted i c now =>
      by_cases same : c.name = n
      · subst same
        have free : ¬ Blocked d h c.name now := rest.decided kept_rest allowed
        have none : underWay c.name h = 0 := by
          by_contra some
          exact free ⟨enabled, .inl ⟨counts, underWay_ne_zero.1 some⟩⟩
        rw [underWay_admitted, none, if_pos rfl]
      · rw [underWay_admitted, if_neg same]
        exact ih
    | released i name =>
      have := rest.underWay_released allowed n
      omega
    | _ => exact ih

theorem one_le_window {d : Dispatcher} (enabled : 0 < d.tracker.window) : 1 ≤ d.tracker.window := by
  change (0 : ℚ) < (d.options.cooldown.getD 0 : Nat) at enabled
  change (1 : ℚ) ≤ (d.options.cooldown.getD 0 : Nat)
  exact_mod_cast enabled

namespace World

/-- The runs of a command exclude each other and keep their distance. -/
theorem runs_exclusive_and_spaced (env : Surroundings σ) {first w : World σ} {h : List Entry}
    (start : first.New env) (run : Reaches env (fun _ => True) first h w) (kept : .forgotten ∉ h)
    (enabled : 0 < env.dispatcher.tracker.window)
    (counts : env.dispatcher.options.trackInFlight = true) :
    (∀ n, underWay n h ≤ 1) ∧
    (Steady h → ∀ later i c t earlier, h = later ++ .admitted i c t :: earlier →
      ∀ j c' t', .completed j c' t' ∈ earlier → c'.name = c.name →
        Binary64.Apart env.dispatcher.tracker.window t t') ∧
    ∀ m t r, (env.dispatcher.process env.host m).Traces t r →
      RunEvent.course.Dispatched env.dispatcher m (RunEvent.ofTrace t) r := by
  refine ⟨(run.lawful start).1.underWay_le_one kept enabled counts, ?_,
    fun m _ _ trace => RunEvent.dispatched env.dispatcher env.host m trace⟩
  rintro steady later i c t earlier rfl j c' t' completed same
  apply Binary64.apart_of_not_below (one_le_window enabled)
  have free : ¬ Blocked env.dispatcher earlier c.name t :=
    (run.ledger start kept).decided later _ earlier rfl
  rw [← same] at free
  have steady_earlier : Steady earlier := (List.pairwise_append.1 steady).2.1.of_cons
  exact apart_of_not_blocked enabled steady_earlier free completed

/-- Two thirds of the last bit of readings near a thousand, which a difference from them drops. -/
def earlyReading : Binary64 := .finite ⟨false, 3 * 2 ^ 51, -95⟩

def lateReading : Binary64 := .finite ⟨false, 1000 * 2 ^ 43 + 1, -43⟩

def pingedTwice : List Entry × World Unit :=
  ((pinged earlyReading).2.act pingEnv (.adjust fun s => { s with clock := lateReading })).dispatch
    pingEnv ping 9 (pinged earlyReading).1

theorem pingedTwice_reached :
    Reaches pingEnv (fun _ => True) (pingWorld earlyReading) pingedTwice.1 pingedTwice.2 :=
  ((pinged_reached earlyReading).act (.adjust fun s => { s with clock := lateReading }) trivial).dispatch
    ping 9 trivial

theorem pingedTwice_history : pingedTwice.1 =
    [.released 1 "ping", .completed 1 { name := "ping" } lateReading] ++
      .admitted 1 { name := "ping" } lateReading ::
        [.received 1, .released 0 "ping", .completed 0 { name := "ping" } earlyReading,
          .admitted 0 { name := "ping" } earlyReading, .received 0] := by
  decide +kernel

theorem pingedTwice_kept : .forgotten ∉ pingedTwice.1 := by simp [pingedTwice_history]

theorem pingedTwice_steady : Steady pingedTwice.1 := by
  have early : earlyReading ≤ earlyReading := le_refl (Finite.toRat _)
  have late : lateReading ≤ lateReading := le_refl (Finite.toRat _)
  have onwards : earlyReading ≤ lateReading := by
    change Finite.toRat _ ≤ Finite.toRat _
    decide +kernel
  rw [pingedTwice_history]
  simp [Steady, Entry.time?, early, late, onwards]

/-- The window of the first run is over at the late reading, as far as a rounded difference tells. -/
theorem pingedTwice_spaced : (∀ n, underWay n pingedTwice.1 ≤ 1) ∧
    Binary64.Apart pingDispatcher.tracker.window lateReading earlyReading := by
  obtain ⟨exclusive, spaced, -⟩ := runs_exclusive_and_spaced pingEnv (pingWorld_new _)
    pingedTwice_reached pingedTwice_kept (by decide +kernel) rfl
  exact ⟨exclusive, spaced pingedTwice_steady _ 1 _ _ _ pingedTwice_history 0 _ _ (by simp) rfl⟩

/-- With exact differences the window would still be open. -/
theorem not_exactly_spaced : ¬ ∀ (first w : World Unit) (h : List Entry), first.New pingEnv →
    Reaches pingEnv (fun _ => True) first h w → .forgotten ∉ h → Steady h →
    ∀ later i c t earlier, h = later ++ .admitted i c t :: earlier →
      ∀ j c' t', .completed j c' t' ∈ earlier → c'.name = c.name →
        t'.toRat + pingDispatcher.tracker.window ≤ t.toRat := by
  intro spaced
  have apart := spaced _ _ _ (pingWorld_new _) pingedTwice_reached pingedTwice_kept
    pingedTwice_steady _ 1 _ _ _ pingedTwice_history 0 _ earlyReading (by simp) rfl
  exact absurd apart (by decide +kernel)

end World
end ChatCommands
