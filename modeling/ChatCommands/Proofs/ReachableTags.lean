import Mathlib
import ChatCommands.Dispatch.Message
import ChatCommands.Proofs.MessageWords
import ChatCommands.Proofs.OrdinaryHost

set_option autoImplicit false

/-!
# Tags that dispatches can reach

A parser is looked up for each slot that gets a token, and it is a fault that is
not about the argument if there is none. Whether a message can lead there depends
on the command alone: all slots before must have parsers that can read some word.
The check of a registry rules that out for the parsers that it is made with.
-/
namespace ChatCommands
open Text Engine
variable {σ : Type} {keeps : Prop} {host : Host σ}

/-- Whether some host has the parser read the token. -/
def ArgumentParser.canRead (token : String) : ArgumentParser → Bool
  | .text | .host .. => true
  | .integer => (Argument.readInteger token).isOk
  | .number => (Argument.readNumber token).isOk
  | .date strict patterns =>
    match Argument.readDate patterns token with
    | .ok _ => true
    | .error f => !strict && f.isRefusal
  | .member (.hook _) => (Argument.readMention token).isOk
  | .member _ => false

/-- Words can be bound to the slots up to one that has a tag without a parser. -/
def ParserTable.Strands (t : ParserTable) (tag : String) : List Slot → Prop
  | [] => False
  | slot :: slots => slot.rest = false ∧
    match t.parser? slot.tag with
    | none => slot.tag = some tag
    | some parser => (∃ token, IsWord token.toList ∧ parser.canRead token = true) ∧ t.Strands tag slots

/-- There is a message whose dispatch looks up a tag that has no parser. -/
def Dispatcher.Asks (d : Dispatcher) (tag : String) : Prop :=
  ∃ t keyword command, d.parsers = .table t ∧ IsWord keyword.toList ∧
    d.registry.lookup? keyword = some command ∧ t.Strands tag command.definition.slots

namespace Argument
variable {f : Fault} {token : String}

theorem ordinary_readInteger (h : readInteger token = .error f) : f.isOrdinary = true := by
  unfold readInteger at h
  grind [Fault.isOrdinary, Fault.severity]

theorem ordinary_readNumber (h : readNumber token = .error f) : f.isOrdinary = true := by
  unfold readNumber at h
  grind [Fault.isOrdinary, Fault.severity]

theorem ordinary_readDate {patterns : List DatePattern} (h : readDate patterns token = .error f) :
    f.isOrdinary = true := by
  unfold readDate at h
  grind [Fault.isOrdinary, Fault.severity]

theorem ordinary_readMention (h : readMention token = .error f) : f.isOrdinary = true := by
  unfold readMention at h
  grind [Fault.isOrdinary, Fault.severity]

end Argument

/-- A fault that stands in for a value is ordinary and comes with no value. -/
theorem ordinary_without_value {f : Fault} (h : f.isOrdinary = true) (P : Value → Prop) :
    Ordinary (.error f : Except Fault Value) ∧ ∀ v, Except.error f = .ok v → P v :=
  ⟨(ordinary_error f).2 h, nofun⟩

theorem ArgumentParser.usually_run (ordinary : host.Ordinary) (m : Option Message) (slot : Slot)
    (token : String) (p : ArgumentParser) : (p.run host m slot token).Usually keeps fun r =>
      Ordinary r ∧ ∀ v, r = .ok v → p.canRead token = true := by
  cases p with
  | text => exact .done ⟨ordinary_ok _, fun _ _ => rfl⟩
  | integer =>
    refine .done ?_
    unfold canRead
    cases h : Argument.readInteger token with
    | ok n => exact ⟨ordinary_ok _, fun _ _ => rfl⟩
    | error f => exact ordinary_without_value (Argument.ordinary_readInteger h) _
  | number =>
    refine .done ?_
    unfold canRead
    cases h : Argument.readNumber token with
    | ok n => exact ⟨ordinary_ok _, fun _ _ => rfl⟩
    | error f => exact ordinary_without_value (Argument.ordinary_readNumber h) _
  | date strict patterns =>
    unfold canRead
    simp only [run]
    cases h : Argument.readDate patterns token with
    | ok d => exact .done ⟨ordinary_ok _, fun _ _ => rfl⟩
    | error f =>
      dsimp only
      split
      case isTrue => exact .done (ordinary_without_value (Argument.ordinary_readDate h) _)
      case isFalse lenient => exact .noted _ (.done ⟨ordinary_ok _, fun _ _ => by simpa using lenient⟩)
  | member resolver =>
    simp only [run]
    cases h : Argument.readMention token with
    | error f => exact .done (ordinary_without_value (Argument.ordinary_readMention h) _)
    | ok id =>
      cases resolver with
      | none => exact .done (ordinary_without_value rfl _)
      | unusable type => exact .done (ordinary_without_value rfl _)
      | hook hook =>
        refine (usually_runScript (ordinary.resolve hook id m)).bind ?_
        intro r hr
        have readable : (ArgumentParser.member (.hook hook)).canRead token = true := by
          simp [canRead, h, Except.isOk, Except.toBool]
        split
        · exact .done (ordinary_without_value rfl _)
        · exact .done ⟨hr, fun _ _ => readable⟩
  | host label hook =>
    exact (usually_runScript (ordinary.parse hook token slot m)).mono fun r hr => ⟨hr, fun _ _ => rfl⟩

namespace Argument

/-- Without tokens no parser is looked up. -/
theorem usually_bindFrom_nil (parsers : ParserSource) (m : Option Message) (bound : Assoc Value)
    (slots : List Slot) : (bindFrom host parsers m bound slots []).Usually keeps fun r =>
      ∀ f, r ≠ .error (.escaped f) := by
  cases slots with
  | nil => exact .done nofun
  | cons slot slots =>
    simp only [bindFrom]
    split <;> exact .done nofun

theorem usually_bindFrom (ordinary : host.Ordinary) (t : ParserTable) (m : Option Message)
    (slots : List Slot) (bound : Assoc Value) {tokens : List String}
    (words : ∀ token ∈ tokens, IsWord token.toList) :
    (bindFrom host t m bound slots tokens).Usually keeps fun r =>
      ∀ f, r = .error (.escaped f) → ∃ tag, f = .unknownTag tag ∧ t.Strands tag slots := by
  induction slots generalizing bound tokens with
  | nil => exact .done nofun
  | cons slot slots ih =>
    cases tokens with
    | nil => exact (usually_bindFrom_nil t m bound _).mono fun r hr f hf => absurd hf (hr f)
    | cons token tokens =>
      obtain ⟨word, words⟩ := List.forall_mem_cons.1 words
      simp only [bindFrom]
      split
      case isTrue => exact (usually_bindFrom_nil t m _ _).mono fun r hr f hf => absurd hf (hr f)
      case isFalse rest =>
        replace rest : slot.rest = false := by simpa using rest
        cases found : t.parser? slot.tag with
        | none =>
          simp only [ParserSource.parser, found, Option.elim]
          refine .done ?_
          rintro _ ⟨⟩
          refine ⟨_, rfl, rest, ?_⟩
          rw [found]
          cases tagged : slot.tag with
          | none => simp [ParserTable.parser?, tagged] at found
          | some tag => rfl
        | some parser =>
          simp only [ParserSource.parser, found, Option.elim]
          refine (ArgumentParser.usually_run ordinary m slot token parser).bind ?_
          rintro (f | v) ⟨unfatal, readable⟩
          · simp only [(ordinary_error f).1 unfatal, Bool.not_true, Bool.false_eq_true, if_false]
            exact .noted _ (.done nofun)
          · refine (ih _ words).mono ?_
            intro r hr f hf
            obtain ⟨tag, rfl, strands⟩ := hr f hf
            refine ⟨tag, rfl, rest, ?_⟩
            rw [found]
            exact ⟨⟨token, word, readable v rfl⟩, strands⟩

end Argument

end ChatCommands
