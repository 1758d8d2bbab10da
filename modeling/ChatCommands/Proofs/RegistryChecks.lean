import Mathlib
import ChatCommands.Dispatch.Dispatcher
import ChatCommands.Proofs.FirstError

set_option autoImplicit false

/-!
# What the check of a registry leaves

A dispatcher that makes its registry itself has a parser for the tag of each slot
in it. A registry that was made beforehand has been checked too, but against the
parsers that it was made with.
-/
namespace ChatCommands

namespace Registry
variable {parsers : ParserSource}

theorem knows_of_checkTags {slots : List Slot} (h : checkTags parsers slots = .ok ()) :
    ∀ slot ∈ slots, parsers.knows slot.tag = .ok true := by
  induction slots with
  | nil => simp
  | cons slot slots ih =>
    unfold checkTags at h
    split at h
    case h_1 => cases h
    case h_2 known => exact List.forall_mem_cons.2 ⟨known, ih h⟩
    case h_3 => cases h

theorem knows_of_checkDefinitions {ds : List Definition}
    (h : checkDefinitions parsers ds = .ok ()) :
    ∀ d ∈ ds, ∀ slot ∈ d.slots, parsers.knows slot.tag = .ok true := by
  induction ds with
  | nil => simp
  | cons d ds ih =>
    obtain ⟨⟨⟩, checked, h⟩ := bind_eq_ok_iff.1 h
    obtain ⟨⟨⟩, -, tags⟩ := bind_eq_ok_iff.1 checked
    exact List.forall_mem_cons.2 ⟨knows_of_checkTags tags, ih h⟩

/-- The registry has a parser for the tag of each slot. -/
def Knows (r : Registry) (parsers : ParserSource) : Prop :=
  ∀ command ∈ r.commands, ∀ slot ∈ command.definition.slots, parsers.knows slot.tag = .ok true

theorem knows_of_ofCommands {rejectCollisions : Bool} {commands : List Command} {r : Registry}
    (h : ofCommands parsers rejectCollisions commands = .ok r) : r.Knows parsers := by
  obtain ⟨⟨⟩, checked, h⟩ := bind_eq_ok_iff.1 h
  have same : r = ⟨commands⟩ := by
    cases rejectCollisions with
    | false => exact (Except.ok.inj h).symm
    | true =>
      obtain ⟨_, -, h⟩ := bind_eq_ok_iff.1 h
      exact (Except.ok.inj h).symm
  subst same
  intro command hc
  exact knows_of_checkDefinitions checked _ (List.mem_map_of_mem hc)

theorem knows_of_ofDefinitions {rejectCollisions : Bool} {entries : Assoc Handler} {r : Registry}
    (h : ofDefinitions parsers rejectCollisions entries = .ok r) : r.Knows parsers := by
  obtain ⟨commands, -, h⟩ := bind_eq_ok_iff.1 h
  exact knows_of_ofCommands h

end Registry

namespace Dispatcher

end Dispatcher
end ChatCommands
