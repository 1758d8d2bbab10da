import Mathlib
import ChatCommands.Argument.Binding
import ChatCommands.Definition.Structure
import ChatCommands.Proofs.ProgramTrace

set_option autoImplicit false

/-!
# Which tokens are bound to which slots

Each slot before one that takes the rest is paired with the token at its place,
and the parsers of the pairs read their tokens in order until one of them fails.
The slot that takes the rest comes next if there is a token left for it. How far
slots and tokens reach decides alone which slots are bound; a required slot
behind them is missing.
-/
namespace ChatCommands
open Text

namespace Assoc
variable {α : Type}

theorem putAll_cons (d : Assoc α) (e : String × α) (es : Assoc α) :
    d.putAll (e :: es) = (d.put e.1 e.2).putAll es := rfl

theorem ofList_append_singleton (entries : List (String × α)) (e : String × α) :
    ofList (entries ++ [e]) = (ofList entries).put e.1 e.2 := by
  simp [ofList]

/-- A key keeps the place at which it came in first. -/
theorem keys_ofList (entries : List (String × α)) :
    (ofList entries).keys = (entries.map (·.1)).eraseDups := by
  induction entries using List.reverseRecOn with
  | nil => rfl
  | append_singleton entries e ih =>
    rw [ofList_append_singleton, keys_put, ih, List.map_append, List.eraseDups_append]
    by_cases h : e.1 ∈ entries.map (·.1)
    · rw [if_pos (List.mem_eraseDups.2 h)]
      simp [List.removeAll, h]
    · rw [if_neg (mt List.mem_eraseDups.1 h)]
      simp [List.removeAll, h, List.eraseDups_cons]

/-- What came last under a key is found, and else what was there. -/
theorem find?_putAll (d entries : Assoc α) (key : String) :
    (d.putAll entries).find? key = (entries.reverse.lookup key).or (d.find? key) := by
  induction entries using List.reverseRecOn with
  | nil => rfl
  | append_singleton entries e ih =>
    have last : d.putAll (entries ++ [e]) = (d.putAll entries).put e.1 e.2 := by simp [putAll]
    rw [last, List.reverse_append, List.reverse_singleton, List.singleton_append]
    obtain ⟨k, v⟩ := e
    by_cases h : key = k
    · subst h
      simp [find?_put_self]
    · rw [find?_put_of_ne _ h, List.lookup_cons, ih, beq_false_of_ne h]

/-- A key has the value that came last. -/
theorem find?_ofList (entries : List (String × α)) (key : String) :
    (ofList entries).find? key = entries.reverse.lookup key :=
  (find?_putAll [] entries key).trans (Option.or_none)

theorem putAll_of_nodup {d entries : Assoc α} (h : (d ++ entries).keys.Nodup) :
    d.putAll entries = d ++ entries := by
  induction entries generalizing d with
  | nil => simp [putAll]
  | cons e entries ih =>
    have fresh : e.1 ∉ d.keys := by
      intro hd
      rw [keys, List.map_append] at h
      exact List.disjoint_of_nodup_append h hd (by simp)
    rw [putAll_cons, put_of_notMem fresh, ih (by simpa using h)]
    simp

/-- Entries with keys of their own are a dictionary as they are. -/
theorem ofList_of_nodup {entries : List (String × α)} (h : (entries.map (·.1)).Nodup) :
    ofList entries = entries :=
  putAll_of_nodup (d := []) h

end Assoc

/-- One slot may stand before another. -/
def Slot.Precedes (s s' : Slot) : Prop :=
  s.rest = false ∧ (s.required = false → s'.required = false) ∧ s.name ≠ s'.name

theorem Slot.breaks?_eq_none_iff {before : List Slot} {s : Slot} :
    s.breaks? before = none ↔ ∀ b ∈ before, b.Precedes s := by
  unfold breaks? Precedes
  grind

theorem Slot.checkAfter_eq_ok_iff {before slots : List Slot} :
    checkAfter before slots = .ok () ↔
      slots.Pairwise Precedes ∧ ∀ b ∈ before, ∀ s ∈ slots, b.Precedes s := by
  induction slots generalizing before with
  | nil => simp [checkAfter]
  | cons s slots ih =>
    rw [List.pairwise_cons]
    cases h : s.breaks? before with
    | some e =>
      have broken : ¬ ∀ b ∈ before, b.Precedes s := by simp [← breaks?_eq_none_iff, h]
      simp only [checkAfter, h, reduceCtorEq, false_iff]
      exact fun all => broken fun b hb => all.2 b hb s (by simp)
    | none =>
      have first := breaks?_eq_none_iff.1 h
      simp only [checkAfter, h, ih]
      grind

/-- A check succeeds if each slot may stand before all that follow it. -/
theorem Slot.check_eq_ok_iff {slots : List Slot} :
    check slots = .ok () ↔ slots.Pairwise Precedes := by
  simp [check, checkAfter_eq_ok_iff]

namespace Argument
variable {σ : Type}

/-- The slots before one that takes the rest, each with the token at its place. -/
def paired (slots : List Slot) (tokens : List String) : List (Slot × String) :=
  (slots.zip tokens).take (slots.findIdx (·.rest))

/-- What is bound to the first slot that takes the rest, if a token is left for it. -/
def remainder? (slots : List Slot) (tokens : List String) : Option (String × Value) :=
  let place := slots.findIdx (·.rest)
  if place < tokens.length then
    (slots[place]?).map fun slot => (slot.name, .text (unwords (tokens.drop place)))
  else none

/-- The names of the slots that are bound, with the values that were read and the rest. -/
def entries (slots : List Slot) (tokens : List String) (values : List Value) :
    List (String × Value) :=
  ((paired slots tokens).map (·.1.name)).zip values ++ (remainder? slots tokens).toList

/-- Each parser reads its token, one after the other. -/
inductive Reads (host : Host σ) (t : ParserTable) (message : Option Message) :
    List (Slot × String) → List (Exchange (engineInterface σ)) → List Value → Prop where
  | none : Reads host t message [] [] []
  | next {slot : Slot} {token : String} {pairs : List (Slot × String)} {parser : ArgumentParser}
      {u v : List (Exchange (engineInterface σ))} {value : Value} {values : List Value}
      (found : t.parser? slot.tag = some parser)
      (read : (parser.run host message slot token).Traces u (.ok value))
      (rest : Reads host t message pairs v values) :
      Reads host t message ((slot, token) :: pairs) (u ++ v) (value :: values)

/-- What comes of a token that its parser does not read: the failure is noted and reported, unless
it is of a kind that no handler stops. -/
def Refused (slot : Slot) (token : String) (f : Fault) (t : List (Exchange (engineInterface σ)))
    (e : BindingError) : Prop :=
  if f.isOrdinary then
    t = [⟨.effect (.note (if f.isRefusal then .argumentRefused slot.name f
      else .argumentFailed slot.name f)), ()⟩] ∧ e = .invalid slot token f
  else t = [] ∧ e = .escaped f

/-- What the parsers are asked in order to bind tokens to slots, and which entries come of it. -/
inductive Resolves (host : Host σ) (t : ParserTable) (message : Option Message)
    (slots : List Slot) (tokens : List String) :
    List (Exchange (engineInterface σ)) → Except BindingError (List (String × Value)) → Prop where
  | refused {before after : List (Slot × String)} {slot : Slot} {token : String}
      {parser : ArgumentParser} {u v w : List (Exchange (engineInterface σ))}
      {values : List Value} {f : Fault} {e : BindingError}
      (split : paired slots tokens = before ++ (slot, token) :: after)
      (read : Reads host t message before u values) (found : t.parser? slot.tag = some parser)
      (failed : (parser.run host message slot token).Traces v (.error f))
      (noted : Refused slot token f w e) :
      Resolves host t message slots tokens (u ++ v ++ w) (.error e)
  | missing {u : List (Exchange (engineInterface σ))} {values : List Value} {slot : Slot}
      (read : Reads host t message (paired slots tokens) u values)
      (lacking : firstMissing? (slots.drop (entries slots tokens values).length) = some slot) :
      Resolves host t message slots tokens u (.error (.missing slot))
  | bound {u : List (Exchange (engineInterface σ))} {values : List Value}
      (read : Reads host t message (paired slots tokens) u values)
      (enough : firstMissing? (slots.drop (entries slots tokens values).length) = none) :
      Resolves host t message slots tokens u (.ok (entries slots tokens values))

section paired
variable {slot : Slot} {slots : List Slot} {token : String} {tokens : List String}

@[simp] theorem paired_nil_left : paired [] tokens = [] := rfl

@[simp] theorem paired_nil_right : paired slots [] = [] := by simp [paired]

theorem paired_rest (h : slot.rest = true) : paired (slot :: slots) tokens = [] := by
  simp [paired, List.findIdx_cons, h]

theorem paired_cons (h : slot.rest = false) :
    paired (slot :: slots) (token :: tokens) = (slot, token) :: paired slots tokens := by
  simp [paired, List.findIdx_cons, h]

@[simp] theorem remainder?_nil_left : remainder? [] tokens = none := by simp [remainder?]

@[simp] theorem remainder?_nil_right : remainder? slots [] = none := by simp [remainder?]

theorem remainder?_rest (h : slot.rest = true) : remainder? (slot :: slots) (token :: tokens) =
    some (slot.name, .text (unwords (token :: tokens))) := by
  simp [remainder?, List.findIdx_cons, h]

theorem remainder?_cons (h : slot.rest = false) :
    remainder? (slot :: slots) (token :: tokens) = remainder? slots tokens := by
  simp [remainder?, List.findIdx_cons, h]

theorem entries_cons (h : slot.rest = false) (value : Value) (values : List Value) :
    entries (slot :: slots) (token :: tokens) (value :: values) =
      (slot.name, value) :: entries slots tokens values := by
  simp [entries, paired_cons h, remainder?_cons h]

end paired

variable {host : Host σ} {t : ParserTable} {message : Option Message} {slot : Slot}
  {slots : List Slot} {token : String} {tokens : List String}
  {u : List (Exchange (engineInterface σ))}

/-- What is returned when no token is left: the entries, unless a slot is missing. -/
def settled (slots : List Slot) (entries : List (String × Value)) :
    Except BindingError (List (String × Value)) :=
  (firstMissing? slots).elim (.ok entries) fun slot => .error (.missing slot)

@[simp] theorem reads_nil_iff {values : List Value} :
    Reads host t message [] u values ↔ u = [] ∧ values = [] := by
  constructor
  · rintro ⟨⟩
    exact ⟨rfl, rfl⟩
  · rintro ⟨rfl, rfl⟩
    exact .none

theorem resolves_iff_settled (h : paired slots tokens = [])
    {o : Except BindingError (List (String × Value))} :
    Resolves host t message slots tokens u o ↔ u = [] ∧
      o = settled (slots.drop (remainder? slots tokens).toList.length)
        (remainder? slots tokens).toList := by
  have same : entries slots tokens [] = (remainder? slots tokens).toList := by simp [entries, h]
  constructor
  · intro resolves
    cases resolves with
    | refused split => simp [h] at split
    | missing read lacking =>
      rw [h] at read
      obtain ⟨rfl, rfl⟩ := reads_nil_iff.1 read
      rw [same] at lacking
      simp [settled, lacking]
    | bound read enough =>
      rw [h] at read
      obtain ⟨rfl, rfl⟩ := reads_nil_iff.1 read
      rw [same] at enough ⊢
      simp [settled, enough]
  · rintro ⟨rfl, rfl⟩
    have read : Reads host t message (paired slots tokens) [] [] := by simp [h]
    rw [← same]
    unfold settled
    cases lacking : firstMissing? (slots.drop (entries slots tokens []).length) with
    | some slot => exact .missing read lacking
    | none => exact .bound read lacking

theorem resolves_cons_iff (h : slot.rest = false) {parser : ArgumentParser}
    (found : t.parser? slot.tag = some parser) {o : Except BindingError (List (String × Value))} :
    Resolves host t message (slot :: slots) (token :: tokens) u o ↔
      ∃ v w x, u = v ++ w ∧ (parser.run host message slot token).Traces v x ∧
        match x with
        | .error f => ∃ e, o = .error e ∧ Refused slot token f w e
        | .ok value => ∃ o', o = o'.map ((slot.name, value) :: ·) ∧
            Resolves host t message slots tokens w o' := by
  constructor
  · intro resolves
    cases resolves with
    | @refused before after slot' token' parser' u v w values f e split read found' failed noted =>
      rw [paired_cons h] at split
      cases read with
      | none =>
        obtain ⟨⟨⟩, rfl⟩ := List.cons.inj split
        cases found.symm.trans found'
        exact ⟨v, w, _, by simp, failed, e, rfl, noted⟩
      | @next _ _ _ _ u₁ u₂ value _ found₁ first rest =>
        obtain ⟨⟨⟩, tail⟩ := List.cons.inj split
        cases found.symm.trans found₁
        exact ⟨u₁, u₂ ++ v ++ w, _, by simp, first, _, rfl, .refused tail rest found' failed noted⟩
    | @missing u values lacked read lacking =>
      rw [paired_cons h] at read
      cases read with
      | @next _ _ _ _ u₁ u₂ value values found₁ first rest =>
        cases found.symm.trans found₁
        rw [entries_cons h] at lacking
        exact ⟨u₁, u₂, _, rfl, first, .error (.missing lacked), rfl, .missing rest lacking⟩
    | @bound u values read enough =>
      rw [paired_cons h] at read
      cases read with
      | @next _ _ _ _ u₁ u₂ value values found₁ first rest =>
        cases found.symm.trans found₁
        rw [entries_cons h] at enough ⊢
        exact ⟨u₁, u₂, _, rfl, first, .ok (entries slots tokens values), rfl, .bound rest enough⟩
  · rintro ⟨v, w, f | value, rfl, first, resolves⟩
    -- a first token that is refused decides, and else the others do
    · obtain ⟨e, rfl, noted⟩ := resolves
      have split : paired (slot :: slots) (token :: tokens) =
          [] ++ (slot, token) :: paired slots tokens := paired_cons h
      exact .refused split .none found first noted
    · obtain ⟨o, rfl, resolves⟩ := resolves
      cases resolves with
      | refused split read found' failed noted =>
        have split' : paired (slot :: slots) (token :: tokens) = _ :: (_ ++ _) :=
          (paired_cons h).trans (congrArg _ split)
        simpa [Except.map] using Resolves.refused split' (.next found first read) found' failed noted
      | missing read lacking =>
        have read' := Reads.next found first read
        rw [← paired_cons h] at read'
        exact .missing read' (by rwa [entries_cons h])
      | @bound _ values read enough =>
        have read' := Reads.next found first read
        rw [← paired_cons h] at read'
        simpa [Except.map, entries_cons h] using Resolves.bound read' (by rwa [entries_cons h])

theorem map_settled (bound : Assoc Value) (e : String × Value) (es : List (String × Value)) :
    (settled slots (e :: es)).map bound.putAll =
      (settled slots es).map (bound.put e.1 e.2).putAll := by
  unfold settled
  cases firstMissing? slots <;> rfl

theorem bindFrom_nil_right (parsers : ParserSource) (bound : Assoc Value) :
    bindFrom host parsers message bound slots [] =
      .done ((settled slots []).map bound.putAll) := by
  cases slots with
  | nil => rfl
  | cons slot slots =>
    rw [bindFrom, settled]
    cases firstMissing? (slot :: slots) <;> rfl

theorem refused_iff {f : Fault} {r : Except BindingError (Assoc Value)} :
    (if !f.isOrdinary then pure (.error (.escaped f)) else
      Program.bind (Engine.note (if f.isRefusal then .argumentRefused slot.name f
        else .argumentFailed slot.name f)) fun _ => pure (.error (.invalid slot token f)) :
      Engine σ (Except BindingError (Assoc Value))).Traces u r ↔
      ∃ e, r = .error e ∧ Refused slot token f u e := by
  unfold Refused
  cases f.isOrdinary with
  | true =>
    constructor
    · intro runs
      obtain ⟨⟨⟩, w, rfl, ends⟩ := Program.traces_ask_iff.1 runs
      obtain ⟨rfl, rfl⟩ := Program.traces_done_iff.1 ends
      exact ⟨_, rfl, rfl, rfl⟩
    · rintro ⟨_, rfl, rfl, rfl⟩
      exact .ask (.done _)
  | false =>
    constructor
    · intro ends
      obtain ⟨rfl, rfl⟩ := Program.traces_done_iff.1 ends
      exact ⟨_, rfl, rfl, rfl⟩
    · rintro ⟨_, rfl, rfl, rfl⟩
      exact .done _

theorem bindFrom_traces_iff (known : ∀ slot ∈ slots, t.knows slot.tag = true)
    (bound : Assoc Value) {r : Except BindingError (Assoc Value)} :
    (bindFrom host t message bound slots tokens).Traces u r ↔
      ∃ o, Resolves host t message slots tokens u o ∧ r = o.map bound.putAll := by
  -- along the slots, with any entries before: a repeated name may replace one of them at any point
  induction slots generalizing bound tokens u with
  | nil =>
    simp only [bindFrom, Program.traces_done_iff, resolves_iff_settled paired_nil_left,
      remainder?_nil_left]
    constructor
    · rintro ⟨rfl, rfl⟩
      exact ⟨_, ⟨rfl, rfl⟩, rfl⟩
    · rintro ⟨_, ⟨rfl, rfl⟩, rfl⟩
      exact ⟨rfl, rfl⟩
  | cons slot slots ih =>
    obtain ⟨knows, known⟩ := List.forall_mem_cons.1 known
    cases tokens with
    | nil =>
      simp only [bindFrom_nil_right, Program.traces_done_iff, resolves_iff_settled paired_nil_right]
      simp [eq_comm]
    | cons token tokens =>
      cases rest : slot.rest with
      | true =>
        simp only [bindFrom, rest, if_true, bindFrom_nil_right, Program.traces_done_iff,
          resolves_iff_settled (paired_rest rest), remainder?_rest rest]
        simp [map_settled, eq_comm]
      | false =>
        obtain ⟨parser, found⟩ := Option.isSome_iff_exists.1 knows
        simp only [bindFrom, rest, if_false, ParserSource.parser, found, Option.elim, Program.bind_eq,
          Bool.false_eq_true, Program.traces_bind_iff, resolves_cons_iff rest found]
        constructor
        · rintro ⟨v, w, f | value, rfl, first, second⟩
          · obtain ⟨e, rfl, noted⟩ := refused_iff.1 second
            exact ⟨.error e, ⟨v, w, _, rfl, first, e, rfl, noted⟩, rfl⟩
          · obtain ⟨o, resolves, rfl⟩ := (ih known _).1 second
            exact ⟨_, ⟨v, w, _, rfl, first, o, rfl, resolves⟩, by cases o <;> rfl⟩
        · rintro ⟨_, ⟨v, w, f | value, rfl, first, second⟩, rfl⟩
          · obtain ⟨e, rfl, noted⟩ := second
            exact ⟨v, w, _, rfl, first, refused_iff.2 ⟨e, rfl, noted⟩⟩
          · obtain ⟨o, rfl, resolves⟩ := second
            exact ⟨v, w, _, rfl, first, (ih known _).2 ⟨o, resolves, by cases o <;> rfl⟩⟩

theorem Reads.length {pairs : List (Slot × String)} {values : List Value}
    (h : Reads host t message pairs u values) : values.length = pairs.length := by
  induction h with
  | none => rfl
  | next _ _ _ ih => simp [ih]

section checked
variable (checked : slots.Pairwise Slot.Precedes)
include checked

theorem length_le_findIdx_rest : slots.length ≤ slots.findIdx (·.rest) + 1 := by
  induction slots with
  | nil => simp
  | cons slot slots ih =>
    obtain ⟨first, checked⟩ := List.pairwise_cons.1 checked
    cases rest : slot.rest with
    | true =>
      cases slots with
      | nil => simp
      | cons s slots => simpa [rest] using (first s List.mem_cons_self).1
    | false => simpa [List.findIdx_cons, rest] using ih checked

/-- One slot is bound for each token, as long as there are slots. -/
theorem map_fst_entries {values : List Value}
    (length : values.length = (paired slots tokens).length) :
    (entries slots tokens values).map (·.1) = (slots.take tokens.length).map (·.name) := by
  induction slots generalizing tokens values with
  | nil => simp [entries]
  | cons slot slots ih =>
    cases tokens with
    | nil => simp [entries]
    | cons token tokens =>
      cases rest : slot.rest with
      | true =>
        have last := length_le_findIdx_rest checked
        obtain rfl : slots = [] := by simpa [List.findIdx_cons, rest] using last
        simp [entries, paired_rest rest, remainder?_rest rest]
      | false =>
        rw [paired_cons rest, List.length_cons] at length
        obtain ⟨value, values, rfl⟩ := List.exists_cons_of_length_eq_add_one length
        rw [entries_cons rest, List.map_cons, ih checked.of_cons (by simpa using length)]
        simp

theorem drop_entries {values : List Value} (length : values.length = (paired slots tokens).length) :
    slots.drop (entries slots tokens values).length = slots.drop tokens.length := by
  have bound := congrArg List.length (map_fst_entries checked length)
  rw [List.length_map, List.length_map, List.length_take] at bound
  rw [bound]
  rcases Nat.le_total tokens.length slots.length with h | h
  · rw [Nat.min_eq_left h]
  · rw [Nat.min_eq_right h, List.drop_length, List.drop_eq_nil_of_le h]

/-- The required slots come first. -/
theorem firstMissing?_drop (n : Nat) : firstMissing? (slots.drop n) =
    if n < slots.countP (·.required) then slots[n]? else none := by
  induction slots generalizing n with
  | nil => simp [firstMissing?]
  | cons slot slots ih =>
    obtain ⟨first, checked⟩ := List.pairwise_cons.1 checked
    have rest := ih checked
    cases required : slot.required with
    | true =>
      cases n with
      | zero => simp [firstMissing?, required]
      | succ n => simpa [required] using rest n
    | false =>
      -- behind a slot that is not required there is none that is
      have optional : ∀ s ∈ slot :: slots, s.required = false :=
        List.forall_mem_cons.2 ⟨required, fun s hs => (first s hs).2.1 required⟩
      have none : (slot :: slots).countP (·.required) = 0 := by simpa using optional
      rw [none, if_neg (Nat.not_lt_zero n), firstMissing?, List.find?_eq_none]
      exact fun s hs => by simp [optional s (List.mem_of_mem_drop hs)]

end checked

/-- How the binding of slots that stand in order ends if no parser fails: the tokens reach for the
required slots or they do not, and the slots are bound that have a token at their place. -/
structure Positional (slots : List Slot) (tokens : List String)
    (o : Except BindingError (List (String × Value))) : Prop where
  missing : ∀ slot, o = .error (.missing slot) →
    tokens.length < slots.countP (·.required) ∧ slots[tokens.length]? = some slot
  bound : ∀ es, o = .ok es → slots.countP (·.required) ≤ tokens.length ∧
    es.map (·.1) = (slots.take tokens.length).map (·.name) ∧ (es.map (·.1)).Nodup

theorem Refused.error {f : Fault} {e : BindingError} (h : Refused slot token f u e) :
    (f.isOrdinary = true ∧ e = .invalid slot token f) ∨ (f.isOrdinary = false ∧ e = .escaped f) := by
  unfold Refused at h
  split at h
  case isTrue ordinary => exact .inl ⟨ordinary, h.2⟩
  case isFalse fatal => exact .inr ⟨by simpa using fatal, h.2⟩

theorem Refused.ne_missing {f : Fault} {e : BindingError} (h : Refused slot token f u e)
    (lacking : Slot) : e ≠ .missing lacking := by
  obtain ⟨-, rfl⟩ | ⟨-, rfl⟩ := h.error <;> simp

theorem Resolves.positional {o : Except BindingError (List (String × Value))}
    (resolves : Resolves host t message slots tokens u o)
    (checked : slots.Pairwise Slot.Precedes) : Positional slots tokens o := by
  have distinct : (slots.map (·.name)).Nodup :=
    List.pairwise_map.2 (checked.imp fun h => h.2.2)
  cases resolves with
  | refused _ _ _ _ noted =>
    refine ⟨fun lacking h => ?_, nofun⟩
    exact absurd (Except.error.inj h) (noted.ne_missing lacking)
  | missing read lacking =>
    refine ⟨?_, nofun⟩
    rintro slot ⟨⟩
    rw [drop_entries checked read.length, firstMissing?_drop checked] at lacking
    split at lacking
    case isTrue few => exact ⟨few, lacking⟩
    case isFalse => cases lacking
  | bound read enough =>
    refine ⟨nofun, ?_⟩
    rintro es ⟨⟩
    rw [drop_entries checked read.length, firstMissing?_drop checked] at enough
    have names := map_fst_entries checked read.length
    refine ⟨?_, names, ?_⟩
    · by_contra few
      have some := List.getElem?_eq_none_iff.1 (by simpa [Nat.lt_of_not_le few] using enough)
      exact few ((List.countP_le_length).trans some)
    · rw [names, List.map_take]
      exact distinct.sublist (List.take_sublist _ _)

/-- The binding of tokens to slots whose tags have parsers is decided by which token fails first and
else by how far tokens and slots reach. Of slots with one name the first gives the place of the entry
and the last its value; where the slots are in order there are none, and one slot is bound for each
token. -/
theorem bind_resolves (host : Host σ) (message : Option Message) {t : ParserTable}
    {slots : List Slot} (known : ∀ slot ∈ slots, t.knows slot.tag = true) (tokens : List String) :
    (∀ answer : List (Exchange (engineInterface σ)) → (r : EngineRequest σ) → r.Answer,
      ∃ u r, (bind host t message slots tokens).Traces u r ∧
        ∀ v e w, u = v ++ e :: w → e.2 = answer v e.1) ∧
    (∀ u r, (bind host t message slots tokens).Traces u r ↔
      ∃ o, Resolves host t message slots tokens u o ∧ r = o.map Assoc.ofList) ∧
    (∀ es : List (String × Value), (Assoc.ofList es).keys = (es.map (·.1)).eraseDups ∧
      ∀ key, (Assoc.ofList es).find? key = es.reverse.lookup key) ∧
    (Slot.check slots = .ok () → slots.length ≤ slots.findIdx (·.rest) + 1 ∧
      ∀ u o, Resolves host t message slots tokens u o → Positional slots tokens o ∧
        ∀ es, o = .ok es → Assoc.ofList es = es) := by
  refine ⟨fun answer => Program.exists_traces answer _, fun u r => bindFrom_traces_iff known [],
    fun es => ⟨Assoc.keys_ofList es, Assoc.find?_ofList es⟩, fun h => ?_⟩
  have checked := Slot.check_eq_ok_iff.1 h
  refine ⟨length_le_findIdx_rest checked, fun u o resolves => ?_⟩
  have positional := resolves.positional checked
  exact ⟨positional, fun es h => Assoc.ofList_of_nodup (positional.bound es h).2.2⟩

/-- A number and the rest of a message, for a name that both slots have. -/
def repeatedSlots : List Slot :=
  [{ name := "x", tag := some "Int" }, { name := "y" }, { name := "x", rest := true }]

theorem repeatedSlots_resolved :
    (∀ slot ∈ repeatedSlots, (ParserTable.standard true .none).knows slot.tag = true) ∧
    (bind (Host.silent : Host Unit) (ParserTable.standard true .none) none repeatedSlots
      ["3", "b", "c", "d"]).Traces [] (.ok [("x", .text "c d"), ("y", .text "b")]) := by
  have known : ∀ slot ∈ repeatedSlots, (ParserTable.standard true .none).knows slot.tag = true := by
    decide
  have resolves : Resolves (Host.silent : Host Unit) (ParserTable.standard true .none) none
      repeatedSlots ["3", "b", "c", "d"] []
      (.ok [("x", .int 3), ("y", .text "b"), ("x", .text "c d")]) := by
    have integer : (ParserTable.standard true .none).parser? (some "Int") = some .integer := rfl
    have text : (ParserTable.standard true .none).parser? none = some .text := rfl
    have read : Reads (Host.silent : Host Unit) (ParserTable.standard true .none) none
        (paired repeatedSlots ["3", "b", "c", "d"]) [] [.int 3, .text "b"] :=
      .next (u := []) integer (.done _) (.next (u := []) text (.done _) .none)
    exact .bound read rfl
  exact ⟨known, ((bind_resolves _ none known _).2.1 _ _).2 ⟨_, resolves, rfl⟩⟩

end Argument
end ChatCommands
