import Mathlib
import ChatCommands.Proofs.BindingLaw
import ChatCommands.Proofs.DefinitionText
import ChatCommands.Proofs.LoneDispatch
import ChatCommands.Proofs.Routing
import ChatCommands.Proofs.SlotOrder

set_option autoImplicit false

/-!
# What every registered definition is like

The check of a registry sees to the order of slots and to their names and tags.
That names are not empty and that a slot which takes the rest has no tag, only the
grammar of definitions sees to. So all of it holds in a registry that was made of
texts; in one that was made of commands it holds for those that came like that.
Tags are never taken out of a table, so that the parsers last.
-/
namespace ChatCommands

namespace Definition

/-- What the check of a definition sees to. -/
structure Arranged (d : Definition) : Prop where
  /-- a slot that takes the rest stands before no other -/
  restLast : d.slots.Pairwise fun s _ => s.rest = false
  optionalLast : d.slots.Pairwise fun s s' => s.required = false → s'.required = false
  distinct : (d.slots.map (·.name)).Nodup

/-- What the grammar of definitions sees to. -/
structure Written (d : Definition) : Prop where
  named : d.name ≠ ""
  slotsNamed : ∀ s ∈ d.slots, s.name ≠ ""
  restUntagged : ∀ s ∈ d.slots, s.rest = true → s.tag = none

/-- All that a command's definition is meant to be. -/
structure Sound (d : Definition) : Prop extends Arranged d, Written d

theorem arranged_iff_ordered {d : Definition} : d.Arranged ↔ Slot.Ordered d.slots :=
  ⟨fun h => ⟨h.restLast, h.optionalLast, h.distinct⟩, fun h => ⟨h.restLast, h.optionalLast, h.distinct⟩⟩

theorem arranged_iff_check {d : Definition} : d.Arranged ↔ d.check = .ok () := by
  rw [check, Slot.check_eq_ok_iff, arranged_iff_ordered, Slot.ordered_iff_pairwise]

theorem WellFormed.written {d : Definition} (h : d.WellFormed) : d.Written where
  named := h.name
  slotsNamed s hs := by simpa [Text.IsWord] using (h.slots s hs).name.1
  restUntagged s hs := (h.slots s hs).untagged

end Definition

namespace Registry
variable {parsers : ParserSource} {rejectCollisions : Bool} {r : Registry}

/-- The registry was made of commands, or of texts. -/
def Made (parsers : ParserSource) (rejectCollisions : Bool) (r : Registry) : Prop :=
  (∃ commands, ofCommands parsers rejectCollisions commands = .ok r) ∨
    ∃ entries, ofDefinitions parsers rejectCollisions entries = .ok r

theorem arranged_of_ofCommands {commands : List Command}
    (made : ofCommands parsers rejectCollisions commands = .ok r) :
    ∀ c ∈ r.commands, c.definition.Arranged := by
  obtain ⟨rfl, sound, -⟩ := ofCommands_eq_ok_iff_checked.1 made
  intro c hc
  obtain ⟨⟨⟩, structured, -⟩ := bind_eq_ok_iff.1 (sound c hc)
  exact Definition.arranged_iff_check.2 (mapError_eq_ok_iff.1 structured)

theorem written_of_ofDefinitions {entries : Assoc Handler}
    (made : ofDefinitions parsers rejectCollisions entries = .ok r) :
    ∀ c ∈ r.commands, c.definition.Written := by
  obtain ⟨commands, parsed, made⟩ := ofDefinitions_eq_ok_iff.1 made
  obtain ⟨rfl, -⟩ := ofCommands_eq_ok_iff_checked.1 made
  intro c hc
  obtain ⟨e, -, parsed⟩ := exists_of_mapM_ok (mapM_eq_ok_iff.2 parsed) c hc
  exact (Definition.wellFormed_of_parse (commandOf_eq_ok parsed).1).written

/-- A tag that a parser was found for has one however the table is added to. -/
theorem lasting_of_made (made : r.Made parsers rejectCollisions) :
    ∀ c ∈ r.commands, ∀ s ∈ c.definition.slots, ∀ tag, s.tag = some tag →
      ∃ t : ParserTable, parsers = .table t ∧ ∀ later, (t.registerAll later).knows (some tag) = true := by
  have known : r.Knows parsers := by
    rcases made with ⟨commands, made⟩ | ⟨entries, made⟩
    · exact knows_of_ofCommands made
    · exact knows_of_ofDefinitions made
  intro c hc s hs tag tagged
  have here := known c hc s hs
  cases parsers with
  | unusable type => cases here
  | table t => exact ⟨t, rfl, fun later => ParserTable.knows_registerAll (tagged ▸ Except.ok.inj here) later⟩

theorem arranged_of_made (made : r.Made parsers rejectCollisions) :
    ∀ c ∈ r.commands, c.definition.Arranged := by
  rcases made with ⟨commands, made⟩ | ⟨entries, made⟩
  · exact arranged_of_ofCommands made
  · obtain ⟨commands, -, made⟩ := ofDefinitions_eq_ok_iff.1 made
    exact arranged_of_ofCommands made

/-- The structure of commands and their tags are all that is checked if collisions are allowed. -/
theorem ofCommands_arranged_iff {t : ParserTable} {commands : List Command} :
    ofCommands (.table t) false commands = .ok ⟨commands⟩ ↔ ∀ c ∈ commands, c.definition.Arranged ∧
      ∀ s ∈ c.definition.slots, s.Known t := by
  rw [ofCommands_eq_ok_iff]
  constructor
  · rintro ⟨-, good, -⟩ c hc
    exact ⟨Definition.arranged_iff_check.2 (good c hc).structured, (good c hc).known⟩
  · intro good
    refine ⟨rfl, fun c hc => ⟨Definition.arranged_iff_check.1 (good c hc).1, (good c hc).2⟩, nofun⟩

/-- What holds of every command of a registry, and what else of those that were made of texts. -/
theorem definitions_sound (parsers : ParserSource) (rejectCollisions : Bool) :
    (∀ r : Registry, r.Made parsers rejectCollisions → ∀ c ∈ r.commands, c.definition.Arranged ∧
      ∀ s ∈ c.definition.slots, ∀ tag, s.tag = some tag → ∃ t : ParserTable, parsers = .table t ∧
        ∀ later, (t.registerAll later).knows (some tag) = true) ∧
    (∀ r entries, ofDefinitions parsers rejectCollisions entries = .ok r →
      ∀ c ∈ r.commands, c.definition.Sound) ∧
    (∀ r commands, ofCommands parsers rejectCollisions commands = .ok r → r.commands = commands ∧
      ∀ c ∈ commands, c.definition.Sound ↔ c.definition.Written) ∧
    ∀ (t : ParserTable) commands, ofCommands (.table t) false commands = .ok ⟨commands⟩ ↔
      ∀ c ∈ commands, c.definition.Arranged ∧ ∀ s ∈ c.definition.slots, s.Known t := by
  refine ⟨fun r made c hc => ⟨arranged_of_made made c hc, lasting_of_made made c hc⟩, ?_, ?_,
    fun t commands => ofCommands_arranged_iff⟩
  · intro r entries made c hc
    exact ⟨arranged_of_made (.inr ⟨entries, made⟩) c hc, written_of_ofDefinitions made c hc⟩
  · intro r commands made
    obtain ⟨rfl, -⟩ := ofCommands_eq_ok_iff_checked.1 made
    exact ⟨rfl, fun c hc => ⟨fun sound => sound.toWritten,
      fun written => ⟨arranged_of_ofCommands made c hc, written⟩⟩⟩

/-- What is read from the text of a definition with a tag keeps its parser when another is put in its
place. -/
theorem count_sound : ∃ r : Registry, ofDefinitions (ParserTable.standard true .none) true
      [("count <n:Int> [...words]", { execute := some (.hook ⟨0⟩) })] = .ok r ∧
    (∀ c ∈ r.commands, c.definition.Sound) ∧
    ∃ c ∈ r.commands, ∃ s ∈ c.definition.slots, s.tag = some "Int" ∧
      ((ParserTable.standard true .none).registerAll [("Int", .text), ("Dice", .number)]).knows s.tag := by
  have made : ofDefinitions (ParserTable.standard true .none) true
      [("count <n:Int> [...words]", { execute := some (.hook ⟨0⟩) })] = .ok
        ⟨[{ definition := { name := "count", slots := [{ name := "n", tag := some "Int" },
              { name := "words", required := false, rest := true }] },
            execute := some (.hook ⟨0⟩) }]⟩ := by cbv
  obtain ⟨general, ofTexts, -, -⟩ := definitions_sound (ParserTable.standard true .none) true
  obtain ⟨-, lasting⟩ := general _ (.inr ⟨_, made⟩) _ List.mem_cons_self
  obtain ⟨t, same, knows⟩ := lasting _ List.mem_cons_self "Int" rfl
  obtain rfl := ParserSource.table.inj same
  exact ⟨_, made, ofTexts _ _ made, _, List.mem_cons_self, _, List.mem_cons_self, rfl, knows _⟩

/-- A slot that takes the rest and has a tag. -/
def say : Command where
  definition := { name := "say", slots := [{ name := "text", rest := true, tag := some "Int" }] }

/-- There is a registry of this command, though its definition is not what it is meant to be. -/
theorem say_unsound : ofCommands (ParserTable.standard true .none) true [say] = .ok ⟨[say]⟩ ∧
    ¬ say.definition.Sound :=
  ⟨rfl, fun sound => absurd (sound.restUntagged _ List.mem_cons_self rfl) nofun⟩

end Registry
end ChatCommands
