import Mathlib
import ChatCommands.Proofs.DispatchCourse
import ChatCommands.Proofs.MessageLayout

set_option autoImplicit false

/-!
# Ignored messages

A message is ignored if it invokes no command. Whether it began with the prelude
is part of the outcome, but a message that is nothing more than the prelude and a
gap is reported as if it had begun with something else.
-/
namespace ChatCommands
open Invocation Text
variable {σ : Type}

namespace Dispatcher
variable {d : Dispatcher} {m : Message} {b : Bool}

/-- Only a message that invokes no command is ignored, whatever a host answers on the way. -/
theorem invoked?_of_ignored {host : Host σ} {t : List (Exchange (engineInterface σ))}
    (trace : (d.process host m).Traces t (.ok (.ignored b))) : d.invoked? m = none := by
  have dispatched := RunEvent.dispatched d host m trace
  generalize RunEvent.ofTrace t = events at dispatched
  cases dispatched with
  | ignored _ none => exact none
  | ended _ ended => cases ended

theorem process_of_not_read (host : Host σ) (unread : read? d.options.prelude m.content = none) :
    d.process host m = .done (.ok (.ignored false)) := by
  simp [process, unread]

theorem process_of_invoked?_none (host : Host σ) (none : d.invoked? m = none) : d.process host m =
    .done (.ok (.ignored (read? d.options.prelude m.content).isSome)) := by
  cases read : read? d.options.prelude m.content with
  | none => exact process_of_not_read host read
  | some i =>
    have lost : d.registry.lookup? i.keyword = Option.none := by simpa [invoked?, read] using none
    simp [process, read, lost]

theorem read?_isSome_iff {prelude : String} {content : Option String} :
    (read? prelude content).isSome = true ↔
      Preluded prelude (content.getD "") ∧ ¬ Bare prelude (content.getD "") := by
  rw [← not_iff_not, Bool.not_eq_true, Option.isSome_eq_false_iff, Option.isNone_iff_eq_none,
    read?_eq_none_iff, wordsAfter_eq_nil_iff]
  tauto

/-- A message is ignored, at once, exactly if it invokes no command; and it is then reported to begin with
the prelude exactly if it does so and goes on with more than a gap. -/
theorem ignored_exact (d : Dispatcher) (host : Host σ) (m : Message)
    (t : List (Exchange (engineInterface σ))) (b : Bool) :
    (d.process host m).Traces t (.ok (.ignored b)) ↔ t = [] ∧ d.invoked? m = none ∧
      (b = true ↔ Preluded d.options.prelude (m.content.getD "") ∧
        ¬ Bare d.options.prelude (m.content.getD "")) := by
  constructor
  · intro trace
    have none := invoked?_of_ignored trace
    rw [process_of_invoked?_none host none] at trace
    obtain ⟨rfl, same⟩ := Program.traces_done_iff.1 trace
    obtain rfl : (read? d.options.prelude m.content).isSome = b := by simpa using same
    exact ⟨rfl, none, read?_isSome_iff⟩
  · rintro ⟨rfl, none, reported⟩
    have same : (read? d.options.prelude m.content).isSome = b := by
      rw [Bool.eq_iff_iff, read?_isSome_iff, reported]
    rw [process_of_invoked?_none host none, same]
    exact .done _

def exclaimingDispatcher : Dispatcher where
  options := { prelude := "!" }
  parsers := ParserTable.standard true .none
  registry := ⟨[]⟩

def exclamation : Message where
  content := some "!"
  reply := .closed

/-- Of a message that is the prelude alone it is not said that it begins with the prelude. -/
theorem exclamation_unreported : ¬ ∀ (d : Dispatcher) (m : Message) (b : Bool),
    (d.process (Host.silent : Host Unit) m).Traces [] (.ok (.ignored b)) →
      (b = true ↔ Preluded d.options.prelude (m.content.getD "")) := by
  intro truthful
  have bare : Bare "!" "!" := ⟨"", rfl, by simp [IsGap]⟩
  have ignored : (exclaimingDispatcher.process (Host.silent : Host Unit) exclamation).Traces []
      (.ok (.ignored false)) := by
    rw [process_of_not_read _ (read?_eq_none_iff.2 (wordsAfter_eq_nil_iff.2 (.inr bare)))]
    exact .done _
  have preluded : Preluded "!" "!" := ⟨"", rfl⟩
  exact Bool.false_ne_true ((truthful exclaimingDispatcher exclamation false ignored).2 preluded)

end Dispatcher
end ChatCommands
