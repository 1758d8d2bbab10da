import Mathlib
import ChatCommands.Dispatch.Message
import ChatCommands.Proofs.RegistryConstruction
import ChatCommands.Proofs.WordGaps

set_option autoImplicit false

/-!
# Routing

If a registry was made with collisions refused, each keyword belongs to one
command. A message whose prelude is followed by a keyword and other words then
invokes the command of the keyword with these words, however wide the gaps are,
and it does not matter in which order the commands were registered.
-/
namespace ChatCommands
open Text

namespace Registry
variable {parsers : ParserSource} {r r' : Registry}

/-- The registry was made of commands, or of definitions as texts, with collisions refused. -/
inductive Built (parsers : ParserSource) (r : Registry) : Prop where
  | ofCommands {commands : List Command} (made : ofCommands parsers true commands = .ok r) : Built parsers r
  | ofDefinitions {entries : Assoc Handler} (made : ofDefinitions parsers true entries = .ok r) :
      Built parsers r

theorem commandOf_eq_ok {text : String} {handler : Handler} {c : Command}
    (h : commandOf text handler = .ok c) : Definition.parse text = .ok c.definition ∧
      c.execute = handler.execute ∧ c.guard = handler.guard.bind Callback.given? := by
  unfold commandOf at h
  split at h
  case h_1 hook given =>
    obtain ⟨d, parsed, h⟩ := bind_eq_ok_iff.1 h
    obtain rfl := Except.ok.inj h
    exact ⟨mapError_eq_ok_iff.1 parsed, given.symm, rfl⟩
  case h_2 => cases h

theorem ofDefinitions_eq_ok_iff {rejectCollisions : Bool} {entries : Assoc Handler} :
    ofDefinitions parsers rejectCollisions entries = .ok r ↔ ∃ commands,
      List.Forall₂ (fun e c => commandOf e.1 e.2 = .ok c) entries commands ∧
      ofCommands parsers rejectCollisions commands = .ok r := by
  simp only [ofDefinitions, bind_eq_ok_iff, mapM_eq_ok_iff]

theorem Built.made (built : r.Built parsers) : Registry.ofCommands parsers true r.commands = .ok r := by
  cases built with
  | @ofCommands commands made =>
    obtain ⟨rfl, -⟩ := ofCommands_eq_ok_iff_checked.1 made
    exact made
  | ofDefinitions made =>
    obtain ⟨commands, -, made⟩ := ofDefinitions_eq_ok_iff.1 made
    obtain ⟨rfl, -⟩ := ofCommands_eq_ok_iff_checked.1 made
    exact made

theorem Built.distinct (built : r.Built parsers) :
    (r.commands.flatMap (·.definition.keywords)).Nodup :=
  (ofCommands_eq_ok_iff_checked.1 built.made).2.2 rfl

theorem lookup?_of_mem (distinct : (r.commands.flatMap (·.definition.keywords)).Nodup) {c : Command}
    (mem : c ∈ r.commands) {keyword : String} (mine : keyword ∈ c.definition.keywords) :
    r.lookup? keyword = some c := by
  obtain ⟨i, hi, rfl⟩ := List.getElem_of_mem mem
  exact lookup?_of_distinct distinct (List.getElem?_eq_getElem hi) mine

/-- Where no keyword comes up twice it does not matter in which order commands are searched. -/
theorem lookup?_perm (distinct : (r.commands.flatMap (·.definition.keywords)).Nodup)
    (perm : r'.commands.Perm r.commands) (keyword : String) :
    r'.lookup? keyword = r.lookup? keyword := by
  cases found : r.lookup? keyword with
  | some c =>
    have distinct' := (perm.flatMap_right (·.definition.keywords)).nodup_iff.2 distinct
    obtain ⟨i, hc, mine, -⟩ := lookup?_eq_some_iff.1 found
    exact lookup?_of_mem distinct' (perm.mem_iff.2 (List.mem_of_getElem? hc)) mine
  | none =>
    rw [lookup?, List.find?_eq_none] at found ⊢
    exact fun c hc => found c (perm.mem_iff.1 hc)

theorem ofCommands_perm {rejectCollisions : Bool} {commands commands' : List Command}
    (made : ofCommands parsers rejectCollisions commands = .ok r) (perm : commands'.Perm commands) :
    ofCommands parsers rejectCollisions commands' = .ok ⟨commands'⟩ := by
  obtain ⟨-, sound, distinct⟩ := ofCommands_eq_ok_iff_checked.1 made
  refine ofCommands_eq_ok_iff_checked.2 ⟨rfl, fun c hc => sound c (perm.mem_iff.1 hc), fun refused => ?_⟩
  exact (perm.flatMap_right (·.definition.keywords)).nodup_iff.2 (distinct refused)

/-- Definitions in another order make the same commands in another order. -/
theorem ofDefinitions_perm {rejectCollisions : Bool} {entries entries' : Assoc Handler}
    (made : ofDefinitions parsers rejectCollisions entries = .ok r) (perm : entries'.Perm entries) :
    ∃ r', ofDefinitions parsers rejectCollisions entries' = .ok r' ∧ r'.commands.Perm r.commands := by
  obtain ⟨commands, parsed, made⟩ := ofDefinitions_eq_ok_iff.1 made
  obtain ⟨commands', parsed', perm'⟩ := List.perm_comp_forall₂ perm parsed
  obtain ⟨rfl, -⟩ := ofCommands_eq_ok_iff_checked.1 made
  exact ⟨⟨commands'⟩, ofDefinitions_eq_ok_iff.2 ⟨commands', parsed', ofCommands_perm made perm'⟩, perm'⟩

end Registry

namespace Dispatcher
variable {σ : Type}

/-- Tells the listeners what came of a command. -/
def announce : Except Fault Outcome → Engine σ (Except Fault Outcome)
  | .error f => .done (.error f)
  | .ok outcome =>
    (Engine.request (.effect (.emit finishedEvent [.outcome outcome] []))).bind fun told =>
      .done (told.map fun _ => outcome)

theorem process_of_read? {d : Dispatcher} {m : Message} {i : Invocation} {c : Command}
    (read : Invocation.read? d.options.prelude m.content = some i)
    (found : d.registry.lookup? i.keyword = some c) (host : Host σ) :
    d.process host m =
      (Engine.note (.commandCalled d.options.prelude i.keyword c.name)).bind fun _ =>
        (d.invoke host m c i.tokens).bind announce := by
  simp only [process, read, found, Program.bind_eq]
  congr 1
  funext _
  congr 1
  funext r
  cases r with
  | error f => rfl
  | ok outcome =>
    simp only [announce]
    congr 1
    funext told
    cases told <;> rfl

/-- Each keyword of a command invokes it, with the words that follow, whatever the gaps between them and
whatever the order in which the commands were registered. -/
theorem routes_keywords {parsers : ParserSource} {r : Registry} (built : r.Built parsers) :
    (∀ d : Dispatcher, d.registry = r → ∀ c ∈ r.commands, ∀ keyword ∈ c.definition.keywords,
      ∀ (tokens : List String) (rest : List Char), Spread rest ((keyword :: tokens).map String.toList) →
      ∀ m : Message, m.content = some (d.options.prelude ++ String.ofList rest) → ∀ host : Host σ,
        d.process host m =
          (Engine.note (.commandCalled d.options.prelude keyword c.name)).bind fun _ =>
            (d.invoke host m c tokens).bind announce) ∧
    (∀ commands, commands.Perm r.commands → Registry.ofCommands parsers true commands = .ok ⟨commands⟩ ∧
      ∀ keyword, (Registry.mk commands).lookup? keyword = r.lookup? keyword) ∧
    ∀ entries entries', Registry.ofDefinitions parsers true entries = .ok r → entries'.Perm entries →
      ∃ r', Registry.ofDefinitions parsers true entries' = .ok r' ∧ r'.commands.Perm r.commands ∧
        ∀ keyword, r'.lookup? keyword = r.lookup? keyword := by
  have distinct := built.distinct
  refine ⟨?_, fun commands perm => ?_, fun entries entries' made perm => ?_⟩
  · rintro d rfl c mem keyword mine tokens rest spread m content host
    have read : Invocation.read? d.options.prelude m.content = some ⟨keyword, tokens⟩ := by
      rw [content]
      exact Invocation.read?_append (wordsOf_eq_iff_spread.2 spread)
    exact process_of_read? read (Registry.lookup?_of_mem distinct mem mine) host
  · exact ⟨Registry.ofCommands_perm built.made perm, Registry.lookup?_perm distinct perm⟩
  · obtain ⟨r', made', perm'⟩ := Registry.ofDefinitions_perm made perm
    exact ⟨r', made', perm', Registry.lookup?_perm distinct perm'⟩

/-- Two commands that answer to three keywords and to two. -/
def kitchen : List Command :=
  [{ definition := { name := "brew", aliases := ["make", "b"], slots := [{ name := "what" }] } },
   { definition := { name := "serve", aliases := ["s"] } }]

/-- Its prelude ends with a blank. -/
def kitchenDispatcher : Dispatcher where
  options := { prelude := "chef " }
  parsers := ParserTable.standard true .none
  registry := ⟨kitchen⟩

def orderTea : Message where
  content := some "chef  \tmake \n tea  "
  reply := .closed

/-- An alias between uneven gaps invokes the first command, which is found under its name too if the
commands are registered in the other order. -/
theorem kitchen_routed : (Registry.mk kitchen).Built (ParserTable.standard true .none) ∧
    kitchenDispatcher.process (Host.silent : Host Unit) orderTea =
      ((Engine.note (.commandCalled "chef " "make" "brew")).bind fun _ =>
        (kitchenDispatcher.invoke Host.silent orderTea kitchen[0] ["tea"]).bind announce) ∧
    (Registry.mk kitchen.reverse).lookup? "brew" = some kitchen[0] := by
  have built : (Registry.mk kitchen).Built (ParserTable.standard true .none) :=
    .ofCommands (show Registry.ofCommands _ true kitchen = .ok ⟨kitchen⟩ from rfl)
  obtain ⟨routed, reordered, -⟩ := routes_keywords (σ := Unit) built
  have spread : Spread [' ', '\t', 'm', 'a', 'k', 'e', ' ', '\n', ' ', 't', 'e', 'a', ' ', ' ']
      (["make", "tea"].map String.toList) := wordsOf_eq_iff_spread.1 (by cbv)
  exact ⟨built, routed kitchenDispatcher rfl kitchen[0] (List.getElem_mem _) "make" (by decide) ["tea"] _
      spread orderTea rfl _,
    (reordered _ (List.reverse_perm _)).2 "brew"⟩

end Dispatcher
end ChatCommands
