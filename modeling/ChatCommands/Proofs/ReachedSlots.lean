import Mathlib
import ChatCommands.Proofs.BindingLaw
import ChatCommands.Proofs.GuardedDispatch
import ChatCommands.Proofs.MessageWords

set_option autoImplicit false

/-!
# Slots that the binding reaches

The binding of arguments comes to a slot once all slots before it have read a
token each. What the parser of the slot makes of its own token then decides how
it goes on: a value is bound, and stays so unless a later slot has the same name,
while a fault ends the binding, and with it the dispatch of the message.
-/
namespace ChatCommands
variable {σ : Type}

namespace Argument
variable {host : Host σ} {t : ParserTable} {message : Option Message} {slot : Slot}
  {slots later : List Slot} {token : String} {tokens others : List String}
  {u v w y : List (Exchange (engineInterface σ))} {bound d : Assoc Value}
  {r : Except BindingError (Assoc Value)} {parser : ArgumentParser}

/-- The binding comes to a slot with a token: each slot before it takes one token, and its parser has
read that. Behind the slot there are other slots and tokens. -/
inductive Reaches (host : Host σ) (t : ParserTable) (message : Option Message) :
    List Slot → List String → List (Exchange (engineInterface σ)) → Slot → String → List Slot →
      List String → Prop where
  | here {slot : Slot} {later : List Slot} {token : String} {others : List String}
      (single : slot.rest = false) :
      Reaches host t message (slot :: later) (token :: others) [] slot token later others
  | next {first slot : Slot} {slots later : List Slot} {token₁ token : String}
      {tokens others : List String} {parser : ArgumentParser}
      {u v : List (Exchange (engineInterface σ))} {value : Value} (single : first.rest = false)
      (found : t.parser? first.tag = some parser)
      (read : (parser.run host message first token₁).Traces u (.ok value))
      (rest : Reaches host t message slots tokens v slot token later others) :
      Reaches host t message (first :: slots) (token₁ :: tokens) (u ++ v) slot token later others

theorem Reaches.single (reached : Reaches host t message slots tokens v slot token later others) :
    slot.rest = false := by
  induction reached with
  | here single => exact single
  | next _ _ _ _ ih => exact ih

theorem Reaches.token_mem (reached : Reaches host t message slots tokens v slot token later others) :
    token ∈ tokens := by
  induction reached with
  | here => exact List.mem_cons_self
  | next _ _ _ _ ih => exact List.mem_cons_of_mem _ ih

theorem bindFrom_cons_iff (single : slot.rest = false) (found : t.parser? slot.tag = some parser) :
    (bindFrom host t message bound (slot :: later) (token :: others)).Traces w r ↔
      ∃ a b x, w = a ++ b ∧ (parser.run host message slot token).Traces a x ∧
        match x with
        | .ok value => (bindFrom host t message (bound.put slot.name value) later others).Traces b r
        | .error f => ∃ e, r = .error e ∧ Refused slot token f b e := by
  simp only [bindFrom, single, Bool.false_eq_true, if_false, ParserSource.parser, found, Option.elim,
    Program.bind_eq, Program.traces_bind_iff]
  constructor
  · rintro ⟨a, b, f | value, rfl, first, second⟩
    · exact ⟨a, b, _, rfl, first, refused_iff.1 second⟩
    · exact ⟨a, b, _, rfl, first, second⟩
  · rintro ⟨a, b, f | value, rfl, first, second⟩
    · exact ⟨a, b, _, rfl, first, refused_iff.2 second⟩
    · exact ⟨a, b, _, rfl, first, second⟩

theorem Reaches.goes_on (reached : Reaches host t message slots tokens v slot token later others)
    (trace : (bindFrom host t message bound slots tokens).Traces w r) (split : w ++ y = v ++ u) :
    ∃ bound' w', w = v ++ w' ∧ u = w' ++ y ∧
      (bindFrom host t message bound' (slot :: later) (token :: others)).Traces w' r := by
  -- the traces begin alike, so that the parser of each slot before this one gives what it gave there
  induction reached generalizing bound w with
  | here => exact ⟨bound, w, rfl, split.symm, trace⟩
  | next single found read _ ih =>
    obtain ⟨a, b, x, rfl, first, rest⟩ := (bindFrom_cons_iff single found).1 trace
    rw [List.append_assoc, List.append_assoc] at split
    obtain ⟨rfl, split, rfl⟩ := first.same read split
    obtain ⟨bound', w', rfl, rfl, trace⟩ := ih rest split
    exact ⟨bound', w', by simp, rfl, trace⟩

/-- The slots leave alone what is bound to other names, and no other slot is reported. -/
def Keeps (slots : List Slot) (bound : Assoc Value) : Except BindingError (Assoc Value) → Prop
  | .ok d => ∀ key ∉ slots.map (·.name), d.find? key = bound.find? key
  | .error (.missing s) | .error (.invalid s _ _) => s ∈ slots
  | .error (.escaped _) => True

theorem Keeps.cons {value : Value} (h : Keeps slots (bound.put slot.name value) r) :
    Keeps (slot :: slots) bound r := by
  match r with
  | .ok d =>
    intro key absent
    obtain ⟨other, absent⟩ := not_or.1 (mt List.mem_cons.2 absent)
    rw [h key absent, Assoc.find?_put_of_ne _ other]
  | .error (.missing s) | .error (.invalid s _ _) => exact List.mem_cons_of_mem _ h
  | .error (.escaped _) => trivial

theorem keeps_bindFrom (trace : (bindFrom host t message bound slots tokens).Traces u r) :
    Keeps slots bound r := by
  induction slots generalizing bound tokens u with
  | nil =>
    obtain ⟨-, rfl⟩ := Program.traces_done_iff.1 trace
    exact fun _ _ => rfl
  | cons slot slots ih =>
    cases tokens with
    | nil =>
      rw [bindFrom] at trace
      split at trace
      · rename_i missing lacking
        obtain ⟨-, rfl⟩ := Program.traces_done_iff.1 trace
        exact List.mem_of_find?_eq_some lacking
      · obtain ⟨-, rfl⟩ := Program.traces_done_iff.1 trace
        exact fun _ _ => rfl
    | cons token tokens =>
      cases rest : slot.rest with
      | true =>
        simp only [bindFrom, rest, if_true] at trace
        exact (ih trace).cons
      | false =>
        cases found : t.parser? slot.tag with
        | none =>
          simp only [bindFrom, rest, Bool.false_eq_true, if_false, ParserSource.parser, found] at trace
          obtain ⟨-, rfl⟩ := Program.traces_done_iff.1 trace
          trivial
        | some parser =>
          obtain ⟨a, b, x, -, -, rest⟩ := (bindFrom_cons_iff rest found).1 trace
          cases x with
          | ok value => exact (ih rest).cons
          | error f =>
            obtain ⟨e, rfl, refused⟩ := rest
            obtain ⟨-, rfl⟩ | ⟨-, rfl⟩ := refused.error
            · exact List.mem_cons_self
            · trivial

/-- What a parser makes of the token of a slot decides over the binding from there on. A value is bound
to the slot, and another slot is reported if the binding fails all the same. -/
def Decides (slot : Slot) (token : String) (later : List Slot)
    (w : List (Exchange (engineInterface σ))) (r : Except BindingError (Assoc Value)) :
    Except Fault Value → Prop
  | .ok value => (∀ d, r = .ok d → slot.name ∉ later.map (·.name) → d.find? slot.name = some value) ∧
      ∀ s token' f, r = .error (.invalid s token' f) → s ∈ later
  | .error f => ∃ e, r = .error e ∧ Refused slot token f w e

theorem Reaches.decided (reached : Reaches host t message slots tokens v slot token later others)
    (found : t.parser? slot.tag = some parser)
    (trace : (bind host t message slots tokens).Traces w r) (split : w ++ y = v ++ u) :
    ∃ a b x, w = v ++ (a ++ b) ∧ u = a ++ (b ++ y) ∧
      (parser.run host message slot token).Traces a x ∧ Decides slot token later b r x := by
  obtain ⟨bound, w', rfl, rfl, trace⟩ := reached.goes_on trace split
  obtain ⟨a, b, x, rfl, read, rest⟩ := (bindFrom_cons_iff reached.single found).1 trace
  refine ⟨a, b, x, rfl, List.append_assoc .., read, ?_⟩
  cases x with
  | error f => exact rest
  | ok value =>
    have keeps := keeps_bindFrom rest
    constructor
    · rintro d rfl absent
      rw [keeps _ absent, Assoc.find?_put_self]
    · rintro s token' f rfl
      exact keeps

end Argument

namespace Dispatcher
variable {host : Host σ} {m : Message} {d : Dispatcher} {command : Command} {table : ParserTable}
  {slot : Slot} {later : List Slot} {token : String} {t u : List (Exchange (engineInterface σ))}
  {r : Except Fault Outcome}

/-- The dispatch of a message comes to a slot of the command that it invokes, and goes on as `rest` says. -/
structure ComesTo (d : Dispatcher) (host : Host σ) (m : Message) (table : ParserTable)
    (command : Command) (slot : Slot) (token : String) (later : List Slot)
    (t rest : List (Exchange (engineInterface σ))) : Prop where
  parsers : d.parsers = table
  comes : ∃ i u others, Invocation.read? d.options.prelude m.content = some i ∧
    d.registry.lookup? i.keyword = some command ∧
    t = Guard.noted (.commandCalled d.options.prelude i.keyword command.name) ::
      ⟨.claimRun command.definition, true⟩ :: (u ++ rest) ∧
    Argument.Reaches host table (some m) command.definition.slots i.tokens u slot token later others

/-- The outcome is reported and returned, unless nothing is because of a fault: the event that reports
the outcome has failed, or before it a callback with a fault that no handler stops. -/
def Delivers (o : Outcome) (t : List (Exchange (engineInterface σ))) (r : Except Fault Outcome) : Prop :=
  r = .ok o ∨ ∃ f, r = .error f ∧
    (⟨.effect (.emit finishedEvent [.outcome o] []), .error f⟩ ∈ t ∨ f.isOrdinary = false)

/-- What a parser makes of the token of a slot decides over the dispatch from there on. -/
def Settles (d : Dispatcher) (host : Host σ) (m : Message) (command : Command) (slot : Slot)
    (token : String) (later : List Slot) (t : List (Exchange (engineInterface σ)))
    (r : Except Fault Outcome) : Except Fault Value → Prop
  | .ok value => ∀ arguments, d.Passes host m command t arguments →
      slot.name ∉ later.map (·.name) → arguments.find? slot.name = some value
  | .error f => if f.isOrdinary then Delivers (.failed command.definition (.invalid slot token)) t r
      else r = .error f

theorem traces_replyWithError {e : BindingError} {x : Except Fault Unit}
    (trace : (d.replyWithError host m e).Traces t x) : x = .ok () ∨ ∃ f, x = .error f ∧ f.isOrdinary = false := by
  unfold replyWithError at trace
  extract_lets possible at trace
  split at trace
  case isFalse => exact .inl (Program.traces_done_iff.1 trace).2.symm
  case isTrue =>
    obtain ⟨u, v, y, rfl, -, rest⟩ := Program.traces_bind_iff.1 trace
    cases y with
    | ok value => exact .inl (Program.traces_done_iff.1 rest).2.symm
    | error f =>
      dsimp only at rest
      split at rest
      · obtain ⟨_, w, rfl, ended⟩ := Program.traces_ask_iff.1 rest
        exact .inl (Program.traces_done_iff.1 ended).2.symm
      case isFalse fatal => exact .inr ⟨f, (Program.traces_done_iff.1 rest).2.symm, by simpa using fatal⟩

theorem traces_refuse_invalid {cause : Fault}
    (trace : (d.refuse host m command (.invalid slot token cause)).Traces t r) :
    r = .ok (.failed command.definition (.invalid slot token)) ∨ ∃ f, r = .error f ∧ f.isOrdinary = false := by
  obtain ⟨u, v, x, rfl, replied, rest⟩ := Program.traces_bind_iff.1 trace
  rcases traces_replyWithError replied with rfl | ⟨f, rfl, fatal⟩
  · exact .inl (Program.traces_done_iff.1 rest).2.symm
  · exact .inr ⟨f, (Program.traces_done_iff.1 rest).2.symm, fatal⟩

theorem Reported.delivers {o : Outcome} {e : List (Exchange (engineInterface σ))}
    {r' : Except Fault Outcome} (reported : Reported r' e r) (last : e <:+ t)
    (h : r' = .ok o ∨ ∃ f, r' = .error f ∧ f.isOrdinary = false) : Delivers o t r := by
  rcases h with rfl | ⟨f, rfl, fatal⟩
  · cases reported with
    | emitted => exact .inl rfl
    | broken _ f => exact .inr ⟨f, rfl, .inl (last.mem List.mem_cons_self)⟩
  · cases reported
    exact .inr ⟨f, rfl, .inr fatal⟩

/-- The token that a dispatch has come to is a word, and its parser decides over what comes next. -/
theorem ComesTo.settles {parser : ArgumentParser}
    (comes : ComesTo d host m table command slot token later t u)
    (found : table.parser? slot.tag = some parser) (trace : (d.process host m).Traces t r) :
    Text.IsWord token.toList ∧ ∃ a b x, u = a ++ b ∧
      (parser.run host (some m) slot token).Traces a x ∧
      Settles d host m command slot token later t r x := by
  obtain ⟨parsers, i, v, others, read, looked, rfl, reached⟩ := comes
  obtain ⟨w, v', e, x, r', same, bound, followed, reported⟩ := traces_of_claimed read looked trace
  rw [parsers] at bound
  have word := (Invocation.isWord_of_read? read).2 token reached.token_mem
  rw [List.append_assoc] at same
  obtain ⟨a, b, value, rfl, rfl, parsed, decides⟩ := reached.decided found bound same.symm
  refine ⟨word, a, _, value, rfl, parsed, ?_⟩
  cases value with
  | ok value =>
    rintro arguments ⟨i', w, y, read', looked', same', bound'⟩ absent
    -- both are bindings of the same tokens with the same answers
    cases read.symm.trans read'
    rw [parsers] at bound'
    obtain ⟨-, -, rfl⟩ := bound.same bound' (same.symm.trans (List.cons.inj (List.cons.inj same').2).2)
    exact decides.1 arguments rfl absent
  | error f =>
    obtain ⟨error, rfl, refused⟩ := decides
    obtain ⟨ordinary, rfl⟩ | ⟨fatal, rfl⟩ := refused.error
    · simp only [Settles, ordinary, if_true]
      refine reported.delivers ?_ (traces_refuse_invalid followed)
      exact ⟨Guard.noted (.commandCalled d.options.prelude i.keyword command.name) ::
        ⟨.claimRun command.definition, true⟩ ::
        (v ++ (a ++ (b ++ (v' ++ [⟨.finish command.name, ()⟩])))), by simp⟩
    · obtain ⟨rfl, rfl⟩ := Program.traces_done_iff.1 followed
      cases reported
      simp [Settles, fatal]

end Dispatcher
end ChatCommands
