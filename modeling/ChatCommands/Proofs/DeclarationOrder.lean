import Mathlib
import ChatCommands.Proofs.BindingLaw
import ChatCommands.Proofs.Routing
import ChatCommands.Registry.Declaration

set_option autoImplicit false

/-!
# Which declaration answers

The members of an object are gone through in an order that its table and its
classes fix, each name once. One entry is kept for each text that is declared: it
stands where the text came first, and what runs is the member that came last. A
keyword therefore finds the definition of the first declaration that answers to
it, with the member of the last one that repeats its text.
-/
namespace ChatCommands

theorem Assoc.nodup_keys_ofList {α : Type} (entries : List (String × α)) :
    (Assoc.ofList entries).keys.Nodup := by
  induction entries using List.reverseRecOn with
  | nil => exact List.nodup_nil
  | append_singleton entries e ih =>
    rw [ofList_append_singleton, keys_put]
    split
    case isTrue => exact ih
    case isFalse new => exact ih.append (List.nodup_singleton _) (by simpa using new)

theorem Assoc.find?_append_cons {α : Type} {d : Assoc α} {key : String} (h : key ∉ d.keys) (value : α)
    (rest : Assoc α) : Assoc.find? key (d ++ (key, value) :: rest) = some value := by
  induction d with
  | nil => simp [find?]
  | cons e d ih =>
    have other : e.1 ≠ key := fun same => h (same ▸ List.mem_cons_self)
    rw [List.cons_append, find?, if_neg other, ih fun later => h (List.mem_cons_of_mem _ later)]

/-- The text defines a command that answers to the keyword. -/
def Definition.Answers (text keyword : String) : Prop :=
  ∃ d, Definition.parse text = .ok d ∧ keyword ∈ d.keywords

/-- A member that declares a command, with what the declaration means as its guard. -/
structure Attribute where
  text : String
  value : Callback
  guard : Option Callback

namespace Attribute

/-- The command is the one that the attribute declares. -/
structure Makes (a : Attribute) (c : Command) : Prop where
  definition : Definition.parse a.text = .ok c.definition
  execute : c.execute = some a.value
  guard : c.guard = a.guard.bind Callback.given?

def entry (a : Attribute) : String × Handler := (a.text, ⟨some a.value, a.guard⟩)

/-- The last of some attributes that has the text. -/
def last? (text : String) (attributes : List Attribute) : Option Attribute :=
  attributes.reverse.find? (·.text = text)

theorem lookup_entries (text : String) (attributes : List Attribute) :
    (attributes.map entry).reverse.lookup text = (last? text attributes).map (·.entry.2) := by
  rw [last?, ← List.map_reverse]
  induction attributes.reverse with
  | nil => rfl
  | cons a as ih =>
    by_cases same : a.text = text
    · simp [entry, ← same]
    · rw [List.map_cons, entry, List.lookup_cons, beq_false_of_ne (Ne.symm same), ih,
        List.find?_cons_of_neg (by simpa using same)]

theorem last?_append {text : String} {before : List Attribute} (none : ∀ b ∈ before, b.text ≠ text)
    (after : List Attribute) : last? text (before ++ after) = last? text after := by
  have nothing : before.reverse.find? (·.text = text) = Option.none :=
    List.find?_eq_none.2 fun b hb => by simpa using none b (List.mem_reverse.1 hb)
  rw [last?, List.reverse_append, List.find?_append, nothing, Option.or_none, last?]

theorem last?_of_unrepeated {a : Attribute} {after : List Attribute}
    (unrepeated : ∀ b ∈ after, b.text ≠ a.text) : last? a.text (a :: after) = some a := by
  have nothing : after.reverse.find? (·.text = a.text) = none :=
    List.find?_eq_none.2 fun b hb => by simpa using unrepeated b (List.mem_reverse.1 hb)
  rw [last?, List.reverse_cons, List.find?_append, nothing]
  simp

end Attribute

namespace DeclaringObject
variable {o : DeclaringObject}

/-- What a declaration on the object means as its guard. -/
def guardOf (o : DeclaringObject) : GuardReference → Option Callback
  | .none => none
  | .callback h => some (.hook h)
  | .member name => (o.member? name).map (·.value)

/-- The command that the member under a name declares. -/
def declared? (o : DeclaringObject) (name : String) : Option Attribute :=
  match o.member? name with
  | some { value, declaration := some d } => some ⟨d.definition, value, o.guardOf d.guard⟩
  | _ => none

/-- The declarations of the object: those under the names of its table, then those under the names
of each class from the most derived one on, each name once. -/
def Declares (o : DeclaringObject) (attributes : List Attribute) : Prop :=
  ∃ own, o.ownNames = .ok { names := own } ∧
    attributes = (own ++ o.classNames).eraseDups.filterMap o.declared?

theorem lookUp_eq_ok {name : String} {m : Option Member} (h : o.lookUp name = .ok m) :
    m = o.member? name := by
  obtain ⟨⟨⟩, -, h⟩ := bind_eq_ok_iff.1 h
  cases found : o.member? name with
  | some m' =>
    rw [found] at h
    exact (Except.ok.inj h).symm
  | none =>
    rw [found] at h
    obtain ⟨⟨⟩, -, h⟩ := bind_eq_ok_iff.1 h
    exact (Except.ok.inj h).symm

theorem guardFor_eq_ok {g : GuardReference} {guard : Option Callback}
    (h : o.guardFor g = .ok guard) : guard = o.guardOf g := by
  cases g with
  | none | callback => exact (Except.ok.inj h).symm
  | member name =>
    obtain ⟨m, looked, h⟩ := bind_eq_ok_iff.1 h
    rw [guardOf, ← lookUp_eq_ok looked]
    cases m with
    | none => cases h
    | some m => exact (Except.ok.inj h).symm

/-- Collecting puts in one declaration after the other. -/
theorem collectFrom_eq_ok {names : List String} {found entries : Assoc Handler}
    (h : o.collectFrom found names = .ok entries) :
    entries = found.putAll ((names.filterMap o.declared?).map Attribute.entry) := by
  induction names generalizing found with
  | nil => exact (Except.ok.inj h).symm
  | cons name names ih =>
    obtain ⟨m, looked, h⟩ := bind_eq_ok_iff.1 h
    obtain rfl := lookUp_eq_ok looked
    cases member : o.member? name with
    | none =>
      rw [member] at h
      rw [List.filterMap_cons_none (by simp [declared?, member]), ← ih h]
    | some m =>
      obtain ⟨value, declaration⟩ := m
      rw [member] at h
      cases declaration with
      | none => rw [List.filterMap_cons_none (by simp [declared?, member]), ← ih h]
      | some d =>
        obtain ⟨guard, guarded, h⟩ := bind_eq_ok_iff.1 h
        obtain rfl := guardFor_eq_ok guarded
        have here : o.declared? name = some ⟨d.definition, value, o.guardOf d.guard⟩ := by
          simp [declared?, member]
        rw [List.filterMap_cons_some here, List.map_cons, Assoc.putAll_cons]
        exact ih h

theorem ownNames_complete {names : List String} {stop : Option Fault}
    (h : o.memberNames = .ok { names, stop }) (complete : stop = none) :
    ∃ own, o.ownNames = .ok { names := own } ∧ names = (own ++ o.classNames).eraseDups := by
  obtain ⟨⟨own, stop'⟩, owned, h⟩ := bind_eq_ok_iff.1 h
  obtain ⟨rfl, rfl⟩ := NameSequence.mk.inj (Except.ok.inj h)
  subst complete
  exact ⟨own, owned, rfl⟩

theorem collect_eq_ok {entries : Assoc Handler} (h : o.collect = .ok entries) :
    ∃ attributes, o.Declares attributes ∧ entries = Assoc.ofList (attributes.map Attribute.entry) := by
  obtain ⟨⟨names, stop⟩, named, h⟩ := bind_eq_ok_iff.1 h
  obtain ⟨found, collected, h⟩ := bind_eq_ok_iff.1 h
  cases stop with
  | some f => cases h
  | none =>
    obtain rfl := Except.ok.inj h
    obtain ⟨own, owned, rfl⟩ := ownNames_complete named rfl
    exact ⟨_, ⟨own, owned, rfl⟩, collectFrom_eq_ok collected⟩

theorem ofValues_text (names : List String) :
    NameSequence.ofValues (names.map .text) = { names } := by
  induction names with
  | nil => rfl
  | cons name names ih => simp [NameSequence.ofValues, nameOf, ih]

/-- Where no class gives the table another meaning, its names are those of the object's own members. -/
theorem Declares.of_table {attributes : List Attribute} (h : o.Declares attributes)
    (table : o.provision? ClassBody.tableName = some .table) :
    attributes = (o.own.keys ++ o.classNames).eraseDups.filterMap o.declared? := by
  obtain ⟨own, owned, rfl⟩ := h
  obtain ⟨m, looked, owned⟩ := bind_eq_ok_iff.1 owned
  have member : o.member? ClassBody.tableName = some (.ofValue o.table) := by
    rw [member?, table]
  rw [lookUp_eq_ok looked, member] at owned
  have names : NameSequence.ofValues (o.own.keys.map .text) = { names := own } := by
    refine Except.ok.inj ((congrArg Except.ok ?_).trans owned)
    simp [Assoc.keys, List.map_map, Function.comp_def]
  rw [ofValues_text] at names
  rw [(NameSequence.mk.inj names).1]

end DeclaringObject

namespace Registry
variable {parsers : ParserSource} {rejectCollisions : Bool} {entries : Assoc Handler}
  {commands : List Command} {r : Registry} {keyword : String}

theorem answers_iff {text : String} {handler : Handler} {c : Command}
    (h : commandOf text handler = .ok c) :
    Definition.Answers text keyword ↔ c.answersTo keyword = true := by
  rw [Definition.Answers, (commandOf_eq_ok h).1, Command.answersTo, Definition.answersTo_iff_mem_keywords]
  simp

/-- A keyword finds the first entry that answers to it. -/
theorem find?_commands (parsed : List.Forall₂ (fun e c => commandOf e.1 e.2 = .ok c) entries commands)
    {c : Command} : commands.find? (·.answersTo keyword) = some c ↔ ∃ before e after,
      entries = before ++ e :: after ∧ (∀ b ∈ before, ¬ Definition.Answers b.1 keyword) ∧
      Definition.Answers e.1 keyword ∧ commandOf e.1 e.2 = .ok c := by
  induction parsed with
  | nil => simp
  | @cons e c' entries commands made _ ih =>
    rw [List.find?_cons]
    cases answers : c'.answersTo keyword with
    | true =>
      have mine := (answers_iff made).2 answers
      constructor
      · intro h
        obtain rfl := Option.some.inj h
        exact ⟨[], e, entries, rfl, by simp, mine, made⟩
      · rintro ⟨_ | ⟨b, before⟩, e', after, split, earlier, -, made'⟩
        · obtain ⟨rfl, rfl⟩ := List.cons.inj split
          exact congrArg some (Except.ok.inj (made.symm.trans made'))
        · obtain ⟨rfl, rfl⟩ := List.cons.inj split
          exact absurd mine (earlier e (by simp))
    | false =>
      have other : ¬ Definition.Answers e.1 keyword := by simp [answers_iff made, answers]
      rw [ih]
      constructor
      · rintro ⟨before, e', after, rfl, earlier, mine, made'⟩
        exact ⟨e :: before, e', after, rfl, List.forall_mem_cons.2 ⟨other, earlier⟩, mine, made'⟩
      · rintro ⟨_ | ⟨b, before⟩, e', after, split, earlier, mine, made'⟩
        · obtain ⟨rfl, rfl⟩ := List.cons.inj split
          exact absurd mine other
        · obtain ⟨rfl, rfl⟩ := List.cons.inj split
          exact ⟨before, e', after, rfl, (List.forall_mem_cons.1 earlier).2, mine, made'⟩

theorem lookup?_ofDefinitions (made : ofDefinitions parsers rejectCollisions entries = .ok r)
    {c : Command} : r.lookup? keyword = some c ↔ ∃ before e after,
      entries = before ++ e :: after ∧ (∀ b ∈ before, ¬ Definition.Answers b.1 keyword) ∧
      Definition.Answers e.1 keyword ∧ commandOf e.1 e.2 = .ok c := by
  obtain ⟨commands, parsed, made⟩ := ofDefinitions_eq_ok_iff.1 made
  obtain ⟨rfl, -⟩ := ofCommands_eq_ok_iff_checked.1 made
  exact find?_commands parsed

theorem parsed_of_ofDefinitions (made : ofDefinitions parsers rejectCollisions entries = .ok r)
    {i : Nat} {e : String × Handler} (he : entries[i]? = some e) :
    ∃ c, r.commands[i]? = some c ∧ commandOf e.1 e.2 = .ok c := by
  obtain ⟨commands, parsed, made⟩ := ofDefinitions_eq_ok_iff.1 made
  obtain ⟨rfl, -⟩ := ofCommands_eq_ok_iff_checked.1 made
  obtain ⟨length, each⟩ := List.forall₂_iff_get.1 parsed
  obtain ⟨hi, rfl⟩ := List.getElem?_eq_some_iff.1 he
  exact ⟨_, List.getElem?_eq_getElem (length ▸ hi), each i hi (length ▸ hi)⟩

theorem lookup?_eq_none_iff (made : ofDefinitions parsers rejectCollisions entries = .ok r) :
    r.lookup? keyword = none ↔ ∀ e ∈ entries, ¬ Definition.Answers e.1 keyword := by
  constructor
  · intro none e he mine
    obtain ⟨i, hi⟩ := List.mem_iff_getElem?.1 he
    obtain ⟨c, hc, parsed⟩ := parsed_of_ofDefinitions made hi
    exact List.find?_eq_none.1 none c (List.mem_of_getElem? hc) ((answers_iff parsed).1 mine)
  · intro unanswered
    refine Option.eq_none_iff_forall_ne_some.2 fun c found => ?_
    obtain ⟨before, e, after, rfl, -, mine, -⟩ := (lookup?_ofDefinitions made).1 found
    exact unanswered e (by simp) mine

/-- Where no keyword comes up twice, what answers to a keyword stands at one place. -/
theorem place_unique {commands : List Command} (distinct : (commands.flatMap (·.definition.keywords)).Nodup)
    {i j : Nat} {c c' : Command} (hi : commands[i]? = some c) (hj : commands[j]? = some c')
    (mine : keyword ∈ c.definition.keywords) (theirs : keyword ∈ c'.definition.keywords) : i = j := by
  obtain ⟨hi', rfl⟩ := List.getElem?_eq_some_iff.1 hi
  obtain ⟨hj', rfl⟩ := List.getElem?_eq_some_iff.1 hj
  have apart := List.pairwise_iff_getElem.1 (List.nodup_flatMap.1 distinct).2
  rcases lt_trichotomy i j with lt | rfl | lt
  · exact absurd theirs (apart i j hi' hj' lt mine)
  · rfl
  · exact absurd mine (apart j i hj' hi' lt theirs)

/-- If commands are accepted with collisions allowed, they can only be refused for a collision. -/
theorem collision_of_refused (accepted : ofDefinitions parsers false entries = .ok r)
    {e : RegistrationError} (refused : ofDefinitions parsers true entries = .error e) :
    ∃ keyword first second, e = .collision keyword first second := by
  obtain ⟨commands, parsed, made⟩ := ofDefinitions_eq_ok_iff.1 accepted
  rw [ofDefinitions, mapM_eq_ok_iff.2 parsed] at refused
  rw [ofCommands_eq] at made
  obtain ⟨⟨⟩, sound, -⟩ := bind_eq_ok_iff.1 made
  replace refused : ofCommands parsers true commands = .error e := refused
  rw [ofCommands_eq, sound] at refused
  rcases bind_eq_error_iff.1 refused with ⟨⟨⟩⟩ | ⟨⟨⟩, -, refused⟩
  rcases bind_eq_error_iff.1 refused with collides | ⟨_, -, ⟨⟩⟩
  obtain ⟨-, keyword, name, -, owner, -, -, -, rfl⟩ := (checkKeywords_eq_error_iff no_owners).1 collides
  exact ⟨keyword, owner, name, rfl⟩

variable {attributes : List Attribute}

/-- The entry of a text stands where the text comes first, and holds the member that comes last. -/
theorem entry_of_attribute {before : List Attribute} {a : Attribute}
    (new : ∀ b ∈ before, b.text ≠ a.text) (after : List Attribute) : ∃ earlier later, ∃ l : Attribute,
      Assoc.ofList ((before ++ a :: after).map Attribute.entry) =
        earlier ++ (a.text, l.entry.2) :: later ∧
      (∀ e ∈ earlier, ∃ b ∈ before, b.text = e.1) ∧ Attribute.last? a.text (a :: after) = some l := by
  set entries := Assoc.ofList ((before ++ a :: after).map Attribute.entry) with made
  have fresh : a.text ∉ before.map (·.text) := by
    simpa using new
  have keys : entries.map (·.1) = (before.map (·.text)).eraseDups ++
      a.text :: (((after.map (·.text)).removeAll (before.map (·.text))).filter (!· == a.text)).eraseDups := by
    have keys := Assoc.keys_ofList ((before ++ a :: after).map Attribute.entry)
    have texts : ((before ++ a :: after).map Attribute.entry).map (·.1) =
        before.map (·.text) ++ a.text :: after.map (·.text) := by
      simp [Attribute.entry, Function.comp_def]
    rw [texts, List.eraseDups_append, List.cons_removeAll, if_pos (by simpa using fresh),
      List.eraseDups_cons] at keys
    exact keys
  obtain ⟨earlier, rest, split, first, keys⟩ := List.map_eq_append_iff.1 keys
  obtain ⟨⟨text, handler⟩, later, rfl, same, -⟩ := List.map_eq_cons_iff.1 keys
  obtain rfl : text = a.text := same
  have known : ∀ e ∈ earlier, ∃ b ∈ before, b.text = e.1 := by
    intro e he
    have mem : e.1 ∈ (before.map (·.text)).eraseDups := first ▸ List.mem_map_of_mem he
    simpa using List.mem_eraseDups.1 mem
  have found : entries.find? a.text = some handler := by
    rw [split]
    refine Assoc.find?_append_cons (fun mem => ?_) handler later
    obtain ⟨e, he, same⟩ := List.mem_map.1 mem
    obtain ⟨b, hb, text⟩ := known e he
    exact new b hb (text.trans same)
  rw [made, Assoc.find?_ofList, Attribute.lookup_entries, Attribute.last?_append new] at found
  obtain ⟨l, last, rfl⟩ := Option.map_eq_some_iff.1 found
  exact ⟨earlier, later, l, split, known, last⟩

/-- A keyword finds the definition of the first attribute that answers to it, with the member of the last
that repeats its text. -/
theorem lookup?_of_first {before after : List Attribute} {a : Attribute}
    (made : ofDefinitions parsers rejectCollisions
      (Assoc.ofList ((before ++ a :: after).map Attribute.entry)) = .ok r)
    (earlier : ∀ b ∈ before, ¬ Definition.Answers b.text keyword)
    (mine : Definition.Answers a.text keyword) :
    ∃ c, r.lookup? keyword = some c ∧
      ∃ l, Attribute.last? a.text (a :: after) = some l ∧ l.Makes c := by
  -- an earlier attribute of the same text would answer too
  have new : ∀ b ∈ before, b.text ≠ a.text := fun b hb same => earlier b hb (same ▸ mine)
  obtain ⟨front, later, l, split, known, last⟩ := entry_of_attribute new after
  have place : (Assoc.ofList ((before ++ a :: after).map Attribute.entry))[front.length]? =
      some (a.text, l.entry.2) := by
    rw [split, List.getElem?_append_right le_rfl]
    simp
  obtain ⟨c, -, parsed⟩ := parsed_of_ofDefinitions made place
  refine ⟨c, (lookup?_ofDefinitions made).2 ⟨front, _, later, split, fun e he => ?_, mine, parsed⟩, l,
    last, ?_⟩
  · obtain ⟨b, hb, text⟩ := known e he
    exact text ▸ earlier b hb
  · obtain ⟨definition, execute, guard⟩ := commandOf_eq_ok parsed
    have same : l.text = a.text := by simpa using List.find?_some last
    exact ⟨same ▸ definition, execute, guard⟩

theorem mem_keys_iff {text : String} :
    text ∈ (Assoc.ofList (attributes.map Attribute.entry)).keys ↔ ∃ a ∈ attributes, a.text = text := by
  rw [Assoc.keys_ofList, List.mem_eraseDups, List.map_map]
  exact List.mem_map

theorem place_of_attribute {a : Attribute} (ha : a ∈ attributes) : ∃ (i : Nat) (handler : Handler),
    (Assoc.ofList (attributes.map Attribute.entry))[i]? = some (a.text, handler) := by
  obtain ⟨⟨text, handler⟩, he, rfl⟩ := List.mem_map.1 (mem_keys_iff.2 ⟨a, ha, rfl⟩)
  obtain ⟨i, hi⟩ := List.mem_iff_getElem?.1 he
  exact ⟨i, handler, hi⟩

/-- Where collisions are refused, no two texts answer to one keyword, and none has a keyword twice. -/
theorem ofDefinitions_refusing_iff :
    ofDefinitions parsers true (Assoc.ofList (attributes.map Attribute.entry)) = .ok r ↔
      ofDefinitions parsers false (Assoc.ofList (attributes.map Attribute.entry)) = .ok r ∧
      (∀ c ∈ r.commands, c.definition.keywords.Nodup) ∧
      ∀ a ∈ attributes, ∀ b ∈ attributes, a.text ≠ b.text →
        ∀ keyword, Definition.Answers a.text keyword → ¬ Definition.Answers b.text keyword := by
  have mem_keywords {text keyword : String} {handler : Handler} {c : Command}
      (parsed : commandOf text handler = .ok c) :
      Definition.Answers text keyword ↔ keyword ∈ c.definition.keywords :=
    (answers_iff parsed).trans (c.definition.answersTo_iff_mem_keywords keyword)
  constructor
  · intro made
    obtain ⟨commands, parsed, kept⟩ := ofDefinitions_eq_ok_iff.1 made
    obtain ⟨rfl, sound, distinct⟩ := ofCommands_eq_ok_iff_checked.1 kept
    have allowed : ofCommands parsers false r.commands = .ok r :=
      ofCommands_eq_ok_iff_checked.2 ⟨rfl, sound, nofun⟩
    refine ⟨ofDefinitions_eq_ok_iff.2 ⟨r.commands, parsed, allowed⟩,
      (List.nodup_flatMap.1 (distinct rfl)).1, fun a ha b hb differ keyword mine theirs => differ ?_⟩
    obtain ⟨i, _, hi⟩ := place_of_attribute ha
    obtain ⟨j, _, hj⟩ := place_of_attribute hb
    obtain ⟨c, hc, first⟩ := parsed_of_ofDefinitions made hi
    obtain ⟨c', hc', second⟩ := parsed_of_ofDefinitions made hj
    obtain rfl := place_unique (distinct rfl) hc hc' ((mem_keywords first).1 mine)
      ((mem_keywords second).1 theirs)
    exact congrArg Prod.fst (Option.some.inj (hi.symm.trans hj))
  · rintro ⟨made, own, apart⟩
    obtain ⟨commands, parsed, kept⟩ := ofDefinitions_eq_ok_iff.1 made
    obtain ⟨rfl, sound, -⟩ := ofCommands_eq_ok_iff_checked.1 kept
    refine ofDefinitions_eq_ok_iff.2 ⟨r.commands, parsed, ofCommands_eq_ok_iff_checked.2
      ⟨rfl, sound, fun _ => List.nodup_flatMap.2 ⟨own, ?_⟩⟩⟩
    obtain ⟨length, each⟩ := List.forall₂_iff_get.1 parsed
    refine List.pairwise_iff_getElem.2 fun i j hi hj lt keyword mine theirs => ?_
    have first := each i (length ▸ hi) hi
    have second := each j (length ▸ hj) hj
    obtain ⟨a, ha, text⟩ := mem_keys_iff.1 (List.mem_map_of_mem (List.get_mem _ ⟨i, length ▸ hi⟩))
    obtain ⟨b, hb, text'⟩ := mem_keys_iff.1 (List.mem_map_of_mem (List.get_mem _ ⟨j, length ▸ hj⟩))
    refine apart a ha b hb ?_ keyword (text ▸ (mem_keywords first).2 mine)
      (text' ▸ (mem_keywords second).2 theirs)
    have differ := List.pairwise_iff_getElem.1 (Assoc.nodup_keys_ofList (attributes.map Attribute.entry))
      i j (by simpa [Assoc.keys, length] using hi) (by simpa [Assoc.keys, length] using hj) lt
    rw [text, text']
    simpa [Assoc.keys] using differ

end Registry

/-- Which member runs for a keyword, and when collisions are refused. -/
theorem DeclaringObject.first_declaration_answers {o : DeclaringObject} {entries : Assoc Handler}
    (collected : o.collect = .ok entries) : ∃ attributes, o.Declares attributes ∧
      (o.provision? ClassBody.tableName = some .table →
        attributes = (o.own.keys ++ o.classNames).eraseDups.filterMap o.declared?) ∧
      (∀ parsers rejectCollisions r,
        Registry.ofDefinitions parsers rejectCollisions entries = .ok r → ∀ keyword,
          (r.lookup? keyword = none ↔ ∀ a ∈ attributes, ¬ Definition.Answers a.text keyword) ∧
          ∀ before a after, attributes = before ++ a :: after →
            (∀ b ∈ before, ¬ Definition.Answers b.text keyword) → Definition.Answers a.text keyword →
            ∃ c, r.lookup? keyword = some c ∧
              (∃ l, Attribute.last? a.text (a :: after) = some l ∧ l.Makes c) ∧
              ((∀ b ∈ after, b.text ≠ a.text) → a.Makes c)) ∧
      ∀ parsers, (∀ r, Registry.ofDefinitions parsers true entries = .ok r ↔
          Registry.ofDefinitions parsers false entries = .ok r ∧
          (∀ c ∈ r.commands, c.definition.keywords.Nodup) ∧
          ∀ a ∈ attributes, ∀ b ∈ attributes, a.text ≠ b.text →
            ∀ keyword, Definition.Answers a.text keyword → ¬ Definition.Answers b.text keyword) ∧
        ∀ r e, Registry.ofDefinitions parsers false entries = .ok r →
          Registry.ofDefinitions parsers true entries = .error e →
          ∃ keyword first second, e = .collision keyword first second := by
  obtain ⟨attributes, declares, rfl⟩ := collect_eq_ok collected
  refine ⟨attributes, declares, declares.of_table, fun parsers rejectCollisions r made keyword => ⟨?_, ?_⟩,
    fun parsers => ⟨fun r => Registry.ofDefinitions_refusing_iff,
      fun r e accepted => Registry.collision_of_refused accepted⟩⟩
  · rw [Registry.lookup?_eq_none_iff made]
    constructor
    · intro unanswered a ha
      obtain ⟨i, handler, hi⟩ := Registry.place_of_attribute ha
      exact unanswered _ (List.mem_of_getElem? hi)
    · intro unanswered e he
      obtain ⟨a, ha, text⟩ := Registry.mem_keys_iff.1 (List.mem_map_of_mem he)
      exact text ▸ unanswered a ha
  · rintro before a after rfl earlier mine
    obtain ⟨c, found, l, last, makes⟩ := Registry.lookup?_of_first made earlier mine
    refine ⟨c, found, ⟨l, last, makes⟩, fun unrepeated => ?_⟩
    obtain rfl := Option.some.inj ((Attribute.last?_of_unrepeated unrepeated).symm.trans last)
    exact makes

namespace DeclaringObject

/-- An object of a class with these members and with no members of its own. -/
def withMembers (members : Assoc Member) : DeclaringObject where
  own := []
  classes := [{
    name := "Kennel", qualifiedName := "Kennel"
    provisions := members.map (fun e => (e.1, .member e.2)) ++ [(ClassBody.tableName, .table)]
    keepsTable := true, referable := true }]

/-- Two members that share an alias; the second has a guard. -/
def kennel : DeclaringObject := withMembers
  [("feed", ⟨.hook ⟨0⟩, some { definition := "feed|f" }⟩),
   ("fetch", ⟨.hook ⟨1⟩, some { definition := "fetch|f", guard := .member "awake" }⟩),
   ("awake", ⟨.hook ⟨2⟩, none⟩)]

def feeding : Attribute := ⟨"feed|f", .hook ⟨0⟩, none⟩

def fetching : Attribute := ⟨"fetch|f", .hook ⟨1⟩, some (.hook ⟨2⟩)⟩

theorem kennel_declares :
    kennel.classNames.eraseDups.filterMap kennel.declared? = [feeding, fetching] := by rfl

theorem feeding_answers : Definition.Answers feeding.text "f" :=
  ⟨{ name := "feed", aliases := ["f"] }, by cbv, by decide⟩

theorem fetching_answers : Definition.Answers fetching.text "f" :=
  ⟨{ name := "fetch", aliases := ["f"] }, by cbv, by decide⟩

/-- With collisions allowed the alias runs the first member, and with collisions refused there is no
registry. -/
theorem kennel_feeds : ∃ entries r, kennel.collect = .ok entries ∧
    Registry.ofDefinitions (ParserTable.standard true .none) false entries = .ok r ∧
    (∃ c, r.lookup? "f" = some c ∧ feeding.Makes c) ∧
    ∀ r, Registry.ofDefinitions (ParserTable.standard true .none) true entries ≠ .ok r := by
  have collected : kennel.collect = .ok [feeding.entry, fetching.entry] := by rfl
  have made : Registry.ofDefinitions (ParserTable.standard true .none) false
      [feeding.entry, fetching.entry] = .ok
        ⟨[{ definition := { name := "feed", aliases := ["f"] }, execute := some feeding.value },
          { definition := { name := "fetch", aliases := ["f"] }, execute := some fetching.value,
            guard := fetching.guard }]⟩ := by cbv
  obtain ⟨attributes, -, ordered, answered, refusing⟩ := first_declaration_answers collected
  obtain rfl := (ordered rfl).trans kennel_declares
  obtain ⟨c, found, -, makes⟩ :=
    (answered _ _ _ made "f").2 [] feeding [fetching] rfl (by simp) feeding_answers
  refine ⟨_, _, collected, made, ⟨c, found, makes (by simp [feeding, fetching])⟩, fun r refused => ?_⟩
  obtain ⟨-, -, apart⟩ := ((refusing _).1 r).1 refused
  exact apart feeding (by simp) fetching (by simp) (by simp [feeding, fetching]) "f" feeding_answers
    fetching_answers

/-- Two members with the same text. -/
def twins : DeclaringObject := withMembers
  [("first", ⟨.hook ⟨0⟩, some { definition := "pet" }⟩),
   ("second", ⟨.hook ⟨1⟩, some { definition := "pet" }⟩)]

/-- The keyword runs the second member, though the first declares it too and collisions are refused. -/
theorem twins_run_second : ∃ entries r first second, twins.collect = .ok entries ∧
    twins.Declares [first, second] ∧
    Definition.Answers first.text "pet" ∧ Definition.Answers second.text "pet" ∧
    Registry.ofDefinitions (ParserTable.standard true .none) true entries = .ok r ∧
    ∃ c, r.lookup? "pet" = some c ∧ second.Makes c ∧ ¬ first.Makes c := by
  have answers : Definition.Answers "pet" "pet" := ⟨{ name := "pet" }, by cbv, by decide⟩
  refine ⟨[("pet", ⟨some (.hook ⟨1⟩), none⟩)],
    ⟨[{ definition := { name := "pet" }, execute := some (.hook ⟨1⟩) }]⟩, ⟨"pet", .hook ⟨0⟩, none⟩,
    ⟨"pet", .hook ⟨1⟩, none⟩, rfl, ⟨[], rfl, rfl⟩, answers, answers, by cbv, _, rfl,
    ⟨by cbv, rfl, rfl⟩, ?_⟩
  rintro ⟨-, ⟨⟩, -⟩

end DeclaringObject
end ChatCommands
