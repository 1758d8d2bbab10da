import Mathlib
import ChatCommands.Proofs.BindingLaw

set_option autoImplicit false

/-!
# Binding as a walk from left to right

The tokens that are paired with slots are read one after the other until one
cannot be. How a token is read is left open, so that the same walk can be taken
with other parsers, and it tells which parsers are called.
-/
namespace ChatCommands
open Text

namespace Argument
variable {σ : Type}

/-- What is asked to read a token for a slot, and the value or the fault that comes of it. -/
abbrev Reading (σ : Type) :=
  Slot → String → List (Exchange (engineInterface σ)) → Except Fault Value → Prop

/-- A token is read by the parser for the tag of its slot. -/
def byParsers (host : Host σ) (t : ParserTable) (message : Option Message) : Reading σ :=
  fun slot token u x => ∃ parser, t.parser? slot.tag = some parser ∧
    (parser.run host message slot token).Traces u x

/-- The tokens are read from left to right until one cannot be. The second list has the slots whose
parsers are called, with the tokens that they are called for. -/
inductive Walks (reading : Reading σ) : List (Slot × String) → List (Slot × String) →
    List (Exchange (engineInterface σ)) → Except BindingError (List Value) → Prop where
  | done : Walks reading [] [] [] (.ok [])
  | failed {slot : Slot} {token : String} {pairs : List (Slot × String)}
      {u v : List (Exchange (engineInterface σ))} {f : Fault} {e : BindingError}
      (read : reading slot token u (.error f)) (noted : Refused slot token f v e) :
      Walks reading ((slot, token) :: pairs) [(slot, token)] (u ++ v) (.error e)
  | next {slot : Slot} {token : String} {pairs called : List (Slot × String)}
      {u v : List (Exchange (engineInterface σ))} {value : Value}
      {o : Except BindingError (List Value)} (read : reading slot token u (.ok value))
      (rest : Walks reading pairs called v o) :
      Walks reading ((slot, token) :: pairs) ((slot, token) :: called) (u ++ v)
        (o.map (value :: ·))

/-- What comes of the values that were read, with the rest, if no required slot is missing. -/
def concluded (slots : List Slot) (tokens : List String) (values : List Value) :
    Except BindingError (List (String × Value)) :=
  settled (slots.drop (entries slots tokens values).length) (entries slots tokens values)

/-- The walk over the slots that have a token each, and what is bound after it. -/
def Binds (reading : Reading σ) (slots : List Slot) (tokens : List String)
    (called : List (Slot × String)) (u : List (Exchange (engineInterface σ)))
    (r : Except BindingError (Assoc Value)) : Prop :=
  ∃ o, Walks reading (paired slots tokens) called u o ∧
    r = (o.bind (concluded slots tokens)).map Assoc.ofList

section walks
variable {reading : Reading σ} {slot : Slot} {token : String} {pairs called : List (Slot × String)}
  {u : List (Exchange (engineInterface σ))} {o : Except BindingError (List Value)}

theorem walks_nil_iff : Walks reading [] called u o ↔ called = [] ∧ u = [] ∧ o = .ok [] := by
  constructor
  · rintro ⟨⟩
    exact ⟨rfl, rfl, rfl⟩
  · rintro ⟨rfl, rfl, rfl⟩
    exact .done

theorem walks_cons_iff : Walks reading ((slot, token) :: pairs) called u o ↔
    ∃ v w x, u = v ++ w ∧ reading slot token v x ∧
      match x with
      | .error f => ∃ e, o = .error e ∧ called = [(slot, token)] ∧ Refused slot token f w e
      | .ok value => ∃ called' o', called = (slot, token) :: called' ∧ o = o'.map (value :: ·) ∧
          Walks reading pairs called' w o' := by
  constructor
  · intro walks
    cases walks with
    | failed read noted => exact ⟨_, _, _, rfl, read, _, rfl, rfl, noted⟩
    | next read rest => exact ⟨_, _, _, rfl, read, _, _, rfl, rfl, rest⟩
  · rintro ⟨v, w, f | value, rfl, read, rest⟩
    · obtain ⟨e, rfl, rfl, noted⟩ := rest
      exact .failed read noted
    · obtain ⟨called, o, rfl, rfl, rest⟩ := rest
      exact .next read rest

theorem Walks.mono {reading' : Reading σ} (walks : Walks reading pairs called u o)
    (implies : ∀ pair ∈ pairs, ∀ v x, reading pair.1 pair.2 v x → reading' pair.1 pair.2 v x) :
    Walks reading' pairs called u o := by
  induction walks with
  | done => exact .done
  | failed read noted => exact .failed (implies _ List.mem_cons_self _ _ read) noted
  | next read _ ih =>
    refine .next (implies _ List.mem_cons_self _ _ read) (ih fun pair hp => ?_)
    exact implies pair (List.mem_cons_of_mem _ hp)

end walks

section binds
variable {host : Host σ} {t : ParserTable} {message : Option Message} {slot : Slot}
  {slots : List Slot} {token : String} {tokens : List String} {called : List (Slot × String)}
  {u : List (Exchange (engineInterface σ))}

theorem byParsers_iff {x : Except Fault Value} {parser : ArgumentParser}
    (found : t.parser? slot.tag = some parser) :
    byParsers host t message slot token u x ↔ (parser.run host message slot token).Traces u x := by
  simp [byParsers, found]

/-- The answers decide what a parser asks and what it reads. -/
theorem byParsers_determined {u' : List (Exchange (engineInterface σ))}
    {answer : List (Exchange (engineInterface σ)) → (r : EngineRequest σ) → r.Answer}
    {x x' : Except Fault Value}
    (first : byParsers host t message slot token u x)
    (second : byParsers host t message slot token u' x')
    (hu : Program.Answered answer u) (hu' : Program.Answered answer u') : u = u' ∧ x = x' := by
  obtain ⟨p, found, first⟩ := first
  obtain ⟨q, found', second⟩ := second
  cases found.symm.trans found'
  exact first.same_of_answered second hu hu'

theorem Refused.unique {u' : List (Exchange (engineInterface σ))} {f : Fault} {e e' : BindingError}
    (first : Refused slot token f u e) (second : Refused slot token f u' e') : u = u' ∧ e = e' := by
  unfold Refused at first second
  cases ordinary : f.isOrdinary with
  | true =>
    rw [ordinary, if_pos rfl] at first second
    exact ⟨first.1.trans second.1.symm, first.2.trans second.2.symm⟩
  | false =>
    rw [ordinary, if_neg Bool.false_ne_true] at first second
    exact ⟨first.1.trans second.1.symm, first.2.trans second.2.symm⟩

theorem mem_paired {pair : Slot × String} (h : pair ∈ paired slots tokens) : pair.1 ∈ slots :=
  (List.of_mem_zip (List.mem_of_mem_take h)).1

theorem map_concluded (h : slot.rest = false) (value : Value) (o : Except BindingError (List Value)) :
    (o.map (value :: ·)).bind (concluded (slot :: slots) (token :: tokens)) =
      (o.bind (concluded slots tokens)).map ((slot.name, value) :: ·) := by
  cases o with
  | error e => rfl
  | ok values =>
    simp only [Except.map, Except.bind, concluded, settled, entries_cons h, List.length_cons,
      List.drop_succ_cons]
    cases firstMissing? (slots.drop (entries slots tokens values).length) <;> rfl

theorem bind_concluded_eq_invalid {o : Except BindingError (List Value)} {f : Fault}
    (h : (o.bind (concluded slots tokens)).map Assoc.ofList = .error (.invalid slot token f)) :
    o = .error (.invalid slot token f) := by
  cases o with
  | error e => exact congrArg _ (Except.error.inj h)
  | ok values =>
    simp only [Except.bind, concluded, settled] at h
    cases lacking : firstMissing? (slots.drop (entries slots tokens values).length) with
    | none => simp [lacking, Except.map] at h
    | some slot => simp [lacking, Except.map] at h

/-- The outcome is told by the walk with the parsers of a table as it is by how far slots and tokens
reach. -/
theorem resolves_iff_walks (known : ∀ slot ∈ slots, t.knows slot.tag = true)
    {r : Except BindingError (List (String × Value))} :
    Resolves host t message slots tokens u r ↔ ∃ called o,
      Walks (byParsers host t message) (paired slots tokens) called u o ∧
        r = o.bind (concluded slots tokens) := by
  have empty {slots : List Slot} {tokens : List String} (h : paired slots tokens = []) {u r} :
      Resolves host t message slots tokens u r ↔ ∃ called o,
        Walks (byParsers host t message) (paired slots tokens) called u o ∧
          r = o.bind (concluded slots tokens) := by
    rw [resolves_iff_settled h, h]
    simp [walks_nil_iff, Except.bind, concluded, entries, h]
  induction slots generalizing tokens u r with
  | nil => exact empty paired_nil_left
  | cons slot slots ih =>
    obtain ⟨knows, known⟩ := List.forall_mem_cons.1 known
    cases tokens with
    | nil => exact empty paired_nil_right
    | cons token tokens =>
      cases rest : slot.rest with
      | true => exact empty (paired_rest rest)
      | false =>
        obtain ⟨parser, found⟩ := Option.isSome_iff_exists.1 knows
        rw [resolves_cons_iff rest found, paired_cons rest]
        simp only [walks_cons_iff]
        constructor
        · rintro ⟨v, w, f | value, rfl, read, ends⟩
          · obtain ⟨e, rfl, noted⟩ := ends
            exact ⟨_, .error e, ⟨v, w, _, rfl, ⟨parser, found, read⟩, e, rfl, rfl, noted⟩, rfl⟩
          · obtain ⟨r, rfl, resolves⟩ := ends
            obtain ⟨called, o, walks, rfl⟩ := (ih known).1 resolves
            exact ⟨_, _, ⟨v, w, _, rfl, ⟨parser, found, read⟩, called, o, rfl, rfl, walks⟩,
              (map_concluded rest value o).symm⟩
        · rintro ⟨called, _, ⟨v, w, f | value, rfl, ⟨parser', found', read⟩, ends⟩, rfl⟩
          · cases found.symm.trans found'
            obtain ⟨e, rfl, rfl, noted⟩ := ends
            exact ⟨v, w, _, rfl, read, e, rfl, noted⟩
          · cases found.symm.trans found'
            obtain ⟨called, o, rfl, rfl, walks⟩ := ends
            exact ⟨v, w, _, rfl, read, _, map_concluded rest value o, (ih known).2 ⟨called, o, walks, rfl⟩⟩

theorem bind_traces_iff_binds (known : ∀ slot ∈ slots, t.knows slot.tag = true)
    {r : Except BindingError (Assoc Value)} :
    (bind host t message slots tokens).Traces u r ↔
      ∃ called, Binds (byParsers host t message) slots tokens called u r := by
  rw [bind, bindFrom_traces_iff known]
  simp only [resolves_iff_walks known]
  constructor
  · rintro ⟨_, ⟨called, o, walks, rfl⟩, rfl⟩
    exact ⟨called, o, walks, rfl⟩
  · rintro ⟨called, o, walks, rfl⟩
    exact ⟨_, ⟨called, o, walks, rfl⟩, rfl⟩

end binds

end Argument
end ChatCommands
