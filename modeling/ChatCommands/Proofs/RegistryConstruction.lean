import Mathlib
import ChatCommands.Proofs.FirstError
import ChatCommands.Registry.Basic

set_option autoImplicit false

/-!
# How registries are made

A registry is made of commands exactly if each is well structured, has known tags
only and, if collisions are refused, no keyword comes up twice. It then holds
these commands in their order, and a keyword finds the first that answers to it.
Otherwise the first command that is at fault decides the error, and a keyword
that comes up again does only if no command is at fault.
-/
namespace ChatCommands

namespace Assoc
variable {α : Type}

theorem mem_of_find? {d : Assoc α} {key : String} {value : α} (h : d.find? key = some value) :
    (key, value) ∈ d := by
  induction d with
  | nil => cases h
  | cons e rest ih =>
    obtain ⟨k, v⟩ := e
    by_cases hk : k = key
    · simp only [find?, hk, if_true, Option.some.injEq] at h
      simp [hk, h]
    · simp only [find?, hk, if_false] at h
      exact List.mem_cons_of_mem _ (ih h)

theorem find?_eq_none_iff {d : Assoc α} {key : String} : d.find? key = none ↔ key ∉ d.keys := by
  induction d with
  | nil => simp [find?, keys]
  | cons e rest ih =>
    obtain ⟨k, v⟩ := e
    unfold keys at ih
    by_cases hk : k = key
    · simp [find?, keys, hk]
    · simp [find?, keys, hk, Ne.symm hk, ih]

/-- A key that comes up once has the value that comes with it. -/
theorem find?_of_mem {d : Assoc α} {key : String} {value : α} (distinct : d.keys.Nodup)
    (h : (key, value) ∈ d) : d.find? key = some value := by
  induction d with
  | nil => cases h
  | cons e rest ih =>
    obtain ⟨notMem, distinct⟩ := List.nodup_cons.1 distinct
    rcases List.mem_cons.1 h with rfl | h
    · simp [find?]
    · have other : e.1 ≠ key := by
        rintro rfl
        exact notMem (List.mem_map.2 ⟨_, h, rfl⟩)
      rw [find?, if_neg other, ih distinct h]

end Assoc

/-- The slot has no tag, or one that is in the table. -/
def Slot.Known (t : ParserTable) (s : Slot) : Prop := ∀ tag, s.tag = some tag → tag ∈ t.keys

theorem Slot.knows_table (t : ParserTable) (s : Slot) :
    ∃ b, (ParserSource.table t).knows s.tag = .ok b ∧ (b = true ↔ s.Known t) := by
  refine ⟨_, rfl, ?_⟩
  cases tag : s.tag with
  | none => simp [ParserTable.knows, ParserTable.parser?, Known, tag]
  | some tag' =>
    have known : t.find? tag' = none ↔ tag' ∉ t.keys := Assoc.find?_eq_none_iff
    cases h : t.find? tag' <;> simp_all [ParserTable.knows, ParserTable.parser?, Known]

namespace Definition

/-- The definition is well structured and has known tags only. -/
structure Admissible (t : ParserTable) (d : Definition) : Prop where
  structured : d.check = .ok ()
  known : ∀ s ∈ d.slots, s.Known t

/-- What is wrong with a definition. Its structure comes before its tags, and the first slot with an
unknown one counts. -/
inductive Faulty (t : ParserTable) (d : Definition) : RegistrationError → Prop where
  | malformed {e : StructureError} (h : d.check = .error e) : Faulty t d (.malformed e)
  | unknownTag {before after : List Slot} {s : Slot} {tag : String} (structured : d.check = .ok ())
      (slots : d.slots = before ++ s :: after) (known : ∀ b ∈ before, b.Known t)
      (tagged : s.tag = some tag) (unknown : tag ∉ t.keys) : Faulty t d (.unknownTag s.name tag)

end Definition

namespace Registry

/-- Why there is no registry of these definitions. -/
inductive Rejected (t : ParserTable) (rejectCollisions : Bool) (ds : List Definition) :
    RegistrationError → Prop where
  | faulty {before after : List Definition} {d : Definition} {e : RegistrationError}
      (split : ds = before ++ d :: after) (good : ∀ b ∈ before, b.Admissible t)
      (faulty : d.Faulty t e) : Rejected t rejectCollisions ds e
  /-- the keyword comes up for the second time, and no other did so before -/
  | collision {before after : List (String × String)} {keyword owner name : String}
      (refused : rejectCollisions = true) (good : ∀ d ∈ ds, d.Admissible t)
      (split : claimedKeywords ds = before ++ (keyword, name) :: after)
      (distinct : (before.map (·.1)).Nodup) (earlier : (keyword, owner) ∈ before) :
      Rejected t rejectCollisions ds (.collision keyword owner name)

variable {t : ParserTable}

theorem checkTags_cons (parsers : ParserSource) (s : Slot) (ss : List Slot) :
    checkTags parsers (s :: ss) = (checkTags parsers [s] >>= fun _ => checkTags parsers ss) := by
  simp only [checkTags]
  split <;> rfl

theorem checkTags_singleton_eq_ok_iff {s : Slot} : checkTags (.table t) [s] = .ok () ↔ s.Known t := by
  obtain ⟨b, knows, iff⟩ := s.knows_table t
  rw [checkTags, knows, ← iff]
  cases b <;> simp [checkTags]

theorem checkTags_singleton_eq_error_iff {s : Slot} {e : RegistrationError} :
    checkTags (.table t) [s] = .error e ↔
      ∃ tag, s.tag = some tag ∧ tag ∉ t.keys ∧ .unknownTag s.name tag = e := by
  obtain ⟨b, knows, iff⟩ := s.knows_table t
  rw [checkTags, knows]
  cases b with
  | true =>
    refine ⟨nofun, ?_⟩
    rintro ⟨tag, tagged, unknown, -⟩
    exact absurd (iff.1 rfl tag tagged) unknown
  | false =>
    have unknown : ¬ s.Known t := fun known => by simpa using iff.2 known
    simp only [Slot.Known, not_forall] at unknown
    obtain ⟨tag, tagged, unknown⟩ := unknown
    simp [tagged, unknown]

theorem checkTags_eq_ok_iff {ss : List Slot} :
    checkTags (.table t) ss = .ok () ↔ ∀ s ∈ ss, s.Known t := by
  rw [checks_eq_ok_iff rfl (checkTags_cons (.table t))]
  simp only [checkTags_singleton_eq_ok_iff]

theorem checkTags_eq_error_iff {ss : List Slot} {e : RegistrationError} :
    checkTags (.table t) ss = .error e ↔ ∃ before s after, ss = before ++ s :: after ∧
      (∀ b ∈ before, b.Known t) ∧ ∃ tag, s.tag = some tag ∧ tag ∉ t.keys ∧ .unknownTag s.name tag = e := by
  rw [checks_eq_error_iff rfl (checkTags_cons (.table t))]
  simp only [checkTags_singleton_eq_ok_iff, checkTags_singleton_eq_error_iff]

theorem checkDefinition_eq_ok_iff {d : Definition} :
    checkDefinition (.table t) d = .ok () ↔ d.Admissible t := by
  rw [checkDefinition, bind_eq_ok_iff]
  constructor
  · rintro ⟨_, structured, tags⟩
    exact ⟨mapError_eq_ok_iff.1 structured, checkTags_eq_ok_iff.1 tags⟩
  · intro h
    exact ⟨(), mapError_eq_ok_iff.2 h.structured, checkTags_eq_ok_iff.2 h.known⟩

theorem checkDefinition_eq_error_iff {d : Definition} {e : RegistrationError} :
    checkDefinition (.table t) d = .error e ↔ d.Faulty t e := by
  rw [checkDefinition, bind_eq_error_iff]
  constructor
  · rintro (wrong | ⟨_, structured, tags⟩)
    · obtain ⟨_, broken, rfl⟩ := mapError_eq_error_iff.1 wrong
      exact .malformed broken
    · obtain ⟨before, s, after, slots, known, tag, tagged, unknown, rfl⟩ := checkTags_eq_error_iff.1 tags
      exact .unknownTag (mapError_eq_ok_iff.1 structured) slots known tagged unknown
  · intro h
    cases h with
    | malformed wrong => exact .inl (mapError_eq_error_iff.2 ⟨_, wrong, rfl⟩)
    | unknownTag structured slots known tagged unknown =>
      exact .inr ⟨(), mapError_eq_ok_iff.2 structured,
        checkTags_eq_error_iff.2 ⟨_, _, _, slots, known, _, tagged, unknown, rfl⟩⟩

theorem checkDefinitions_cons (parsers : ParserSource) (d : Definition) (ds : List Definition) :
    checkDefinitions parsers (d :: ds) =
      (checkDefinition parsers d >>= fun _ => checkDefinitions parsers ds) := rfl

theorem checkDefinitions_eq_ok_iff {ds : List Definition} :
    checkDefinitions (.table t) ds = .ok () ↔ ∀ d ∈ ds, d.Admissible t := by
  rw [checks_eq_ok_iff rfl (checkDefinitions_cons (.table t))]
  simp only [checkDefinition_eq_ok_iff]

theorem checkDefinitions_eq_error_iff {ds : List Definition} {e : RegistrationError} :
    checkDefinitions (.table t) ds = .error e ↔ ∃ before d after, ds = before ++ d :: after ∧
      (∀ b ∈ before, b.Admissible t) ∧ d.Faulty t e := by
  rw [checks_eq_error_iff rfl (checkDefinitions_cons (.table t))]
  simp only [checkDefinition_eq_ok_iff, checkDefinition_eq_error_iff]

theorem nodup_keys_append_singleton {owners : Assoc String} {keyword : String}
    (distinct : owners.keys.Nodup) (free : keyword ∉ owners.keys) (name : String) :
    (owners ++ [(keyword, name)]).keys.Nodup := by
  unfold Assoc.keys at distinct free ⊢
  rw [List.map_append]
  exact List.Nodup.append distinct (List.nodup_singleton _) (by simpa using free)

theorem no_owners : (Assoc.keys ([] : Assoc String)).Nodup := List.nodup_nil

theorem checkKeywords_eq_ok_iff {owners : Assoc String} {claims : List (String × String)}
    (distinct : owners.keys.Nodup) :
    checkKeywords owners claims = .ok () ↔ (owners ++ claims).keys.Nodup := by
  induction claims generalizing owners with
  | nil => simpa [checkKeywords] using distinct
  | cons claim claims ih =>
    obtain ⟨keyword, name⟩ := claim
    rw [checkKeywords]
    cases owned : owners.find? keyword with
    | some owner =>
      refine ⟨nofun, fun nodup => ?_⟩
      have mem : keyword ∈ owners.keys := List.mem_map.2 ⟨_, Assoc.mem_of_find? owned, rfl⟩
      rw [Assoc.keys, List.map_append, List.nodup_append] at nodup
      exact absurd rfl (nodup.2.2 keyword mem keyword (by simp))
    | none =>
      have free := Assoc.find?_eq_none_iff.1 owned
      dsimp only
      rw [Assoc.put_of_notMem free, ih (nodup_keys_append_singleton distinct free name)]
      simp

/-- The owners are those of the claims before, none of which came up twice. -/
theorem checkKeywords_eq_error_iff {owners : Assoc String} {claims : List (String × String)}
    (distinct : owners.keys.Nodup) {e : RegistrationError} :
    checkKeywords owners claims = .error e ↔ ∃ before keyword name after owner,
      claims = before ++ (keyword, name) :: after ∧ (owners ++ before).keys.Nodup ∧
      (keyword, owner) ∈ owners ++ before ∧ .collision keyword owner name = e := by
  induction claims generalizing owners with
  | nil => simp [checkKeywords]
  | cons claim claims ih =>
    obtain ⟨keyword, name⟩ := claim
    rw [checkKeywords]
    cases owned : owners.find? keyword with
    | some owner =>
      constructor
      · intro h
        cases h
        exact ⟨[], keyword, name, claims, owner, rfl, by simpa using distinct,
          by simpa using Assoc.mem_of_find? owned, rfl⟩
      · rintro ⟨_ | ⟨first, before⟩, keyword', name', after, owner', split, distinct', mem, rfl⟩
        · cases split
          rw [List.append_nil] at mem
          cases owned.symm.trans (Assoc.find?_of_mem distinct mem)
          rfl
        · obtain ⟨rfl, rfl⟩ := List.cons.inj split
          have here : keyword ∈ owners.keys := List.mem_map.2 ⟨_, Assoc.mem_of_find? owned, rfl⟩
          rw [Assoc.keys, List.map_append, List.nodup_append] at distinct'
          exact absurd rfl (distinct'.2.2 keyword here keyword (by simp))
    | none =>
      have free := Assoc.find?_eq_none_iff.1 owned
      dsimp only
      rw [Assoc.put_of_notMem free, ih (nodup_keys_append_singleton distinct free name)]
      constructor
      · rintro ⟨before, keyword', name', after, owner, rfl, distinct', mem, rfl⟩
        exact ⟨(keyword, name) :: before, keyword', name', after, owner, rfl, by simpa using distinct',
          by simpa using mem, rfl⟩
      · rintro ⟨_ | ⟨first, before⟩, keyword', name', after, owner, split, distinct', mem, rfl⟩
        · cases split
          rw [List.append_nil] at mem
          exact absurd (List.mem_map.2 ⟨_, mem, rfl⟩) free
        · obtain ⟨rfl, rfl⟩ := List.cons.inj split
          exact ⟨before, keyword', name', after, owner, rfl, by simpa using distinct',
            by simpa using mem, rfl⟩

theorem ofCommands_eq (parsers : ParserSource) (rejectCollisions : Bool) (commands : List Command) :
    ofCommands parsers rejectCollisions commands =
      (checkDefinitions parsers (commands.map (·.definition)) >>= fun _ =>
        (if rejectCollisions then checkKeywords [] (claimedKeywords (commands.map (·.definition)))
          else .ok ()) >>= fun _ => .ok ⟨commands⟩) := by
  cases rejectCollisions <;> rfl

theorem keys_claimedKeywords (commands : List Command) :
    Assoc.keys (claimedKeywords (commands.map (·.definition))) =
      commands.flatMap (·.definition.keywords) := by
  simp [Assoc.keys, claimedKeywords, List.map_flatMap, List.flatMap_map, Function.comp_def]

/-- What makes a registry, wherever its parsers are looked up. -/
theorem ofCommands_eq_ok_iff_checked {parsers : ParserSource} {rejectCollisions : Bool}
    {commands : List Command} {r : Registry} :
    ofCommands parsers rejectCollisions commands = .ok r ↔ r.commands = commands ∧
      (∀ c ∈ commands, checkDefinition parsers c.definition = .ok ()) ∧
      (rejectCollisions = true → (commands.flatMap (·.definition.keywords)).Nodup) := by
  have sound : checkDefinitions parsers (commands.map (·.definition)) = .ok () ↔
      ∀ c ∈ commands, checkDefinition parsers c.definition = .ok () := by
    rw [checks_eq_ok_iff rfl (checkDefinitions_cons parsers), List.forall_mem_map]
  have collisions : (if rejectCollisions then
      checkKeywords [] (claimedKeywords (commands.map (·.definition))) else .ok ()) = .ok () ↔
      (rejectCollisions = true → (commands.flatMap (·.definition.keywords)).Nodup) := by
    cases rejectCollisions with
    | false => simp
    | true =>
      rw [← keys_claimedKeywords]
      simpa using checkKeywords_eq_ok_iff no_owners
  rw [ofCommands_eq, ← sound, ← collisions]
  constructor
  · intro h
    obtain ⟨_, sound, h⟩ := bind_eq_ok_iff.1 h
    obtain ⟨_, free, h⟩ := bind_eq_ok_iff.1 h
    cases h
    exact ⟨rfl, sound, free⟩
  · rintro ⟨rfl, sound, free⟩
    exact bind_eq_ok_iff.2 ⟨(), sound, bind_eq_ok_iff.2 ⟨(), free, rfl⟩⟩

theorem ofCommands_eq_ok_iff {rejectCollisions : Bool} {commands : List Command} {r : Registry} :
    ofCommands (.table t) rejectCollisions commands = .ok r ↔ r.commands = commands ∧
      (∀ c ∈ commands, c.definition.Admissible t) ∧
      (rejectCollisions = true → (commands.flatMap (·.definition.keywords)).Nodup) := by
  simp only [ofCommands_eq_ok_iff_checked, checkDefinition_eq_ok_iff]

theorem ofCommands_eq_error_iff {rejectCollisions : Bool} {commands : List Command}
    {e : RegistrationError} : ofCommands (.table t) rejectCollisions commands = .error e ↔
      Rejected t rejectCollisions (commands.map (·.definition)) e := by
  rw [ofCommands_eq, bind_eq_error_iff]
  constructor
  · rintro (wrong | ⟨_, sound, h⟩)
    · obtain ⟨before, d, after, split, good, faulty⟩ := checkDefinitions_eq_error_iff.1 wrong
      exact .faulty split good faulty
    · rcases bind_eq_error_iff.1 h with collides | ⟨_, -, ⟨⟩⟩
      cases rejectCollisions with
      | false => cases collides
      | true =>
        obtain ⟨before, keyword, name, after, owner, split, distinct, earlier, rfl⟩ :=
          (checkKeywords_eq_error_iff no_owners).1 collides
        exact .collision rfl (checkDefinitions_eq_ok_iff.1 sound) split distinct earlier
  · intro h
    cases h with
    | faulty split good faulty =>
      exact .inl (checkDefinitions_eq_error_iff.2 ⟨_, _, _, split, good, faulty⟩)
    | collision refused good split distinct earlier =>
      subst refused
      refine .inr ⟨(), checkDefinitions_eq_ok_iff.2 good, bind_eq_error_iff.2 (.inl ?_)⟩
      exact (checkKeywords_eq_error_iff no_owners).2
        ⟨_, _, _, _, _, split, distinct, earlier, rfl⟩

/-- A keyword finds the first command that answers to it. -/
theorem lookup?_eq_some_iff {r : Registry} {keyword : String} {c : Command} :
    r.lookup? keyword = some c ↔ ∃ i : Nat, r.commands[i]? = some c ∧ keyword ∈ c.definition.keywords ∧
      ∀ j < i, ∀ b : Command, r.commands[j]? = some b → keyword ∉ b.definition.keywords := by
  have answers : ∀ c : Command, c.answersTo keyword = true ↔ keyword ∈ c.definition.keywords :=
    fun c => c.definition.answersTo_iff_mem_keywords keyword
  rw [lookup?, List.find?_eq_some_iff_getElem, answers]
  constructor
  · rintro ⟨mine, i, hi, rfl, earlier⟩
    refine ⟨i, List.getElem?_eq_getElem hi, mine, fun j hj b hb => ?_⟩
    obtain ⟨_, rfl⟩ := List.getElem?_eq_some_iff.1 hb
    rw [← answers]
    simpa using earlier j hj
  · rintro ⟨i, hc, mine, earlier⟩
    obtain ⟨hi, rfl⟩ := List.getElem?_eq_some_iff.1 hc
    refine ⟨mine, i, hi, rfl, fun j hj => ?_⟩
    have other := earlier j hj _ (List.getElem?_eq_getElem (hj.trans hi))
    rw [← answers] at other
    simpa using other

theorem lookup?_of_distinct {r : Registry} (distinct : (r.commands.flatMap (·.definition.keywords)).Nodup)
    {i : Nat} {c : Command} (hc : r.commands[i]? = some c) {keyword : String}
    (mine : keyword ∈ c.definition.keywords) : r.lookup? keyword = some c := by
  refine lookup?_eq_some_iff.2 ⟨i, hc, mine, fun j hj b hb theirs => ?_⟩
  obtain ⟨hi, rfl⟩ := List.getElem?_eq_some_iff.1 hc
  obtain ⟨hj', rfl⟩ := List.getElem?_eq_some_iff.1 hb
  exact List.pairwise_iff_getElem.1 (List.nodup_flatMap.1 distinct).2 j i hj' hi hj theirs mine

/-- When a registry is made and when not, and what it then finds. -/
theorem ofCommands_exact (t : ParserTable) (rejectCollisions : Bool) (commands : List Command) :
    (∀ r, ofCommands (.table t) rejectCollisions commands = .ok r ↔ r.commands = commands ∧
      (∀ c ∈ commands, c.definition.Admissible t) ∧
      (rejectCollisions = true → (commands.flatMap (·.definition.keywords)).Nodup)) ∧
    (∀ e, ofCommands (.table t) rejectCollisions commands = .error e ↔
      Rejected t rejectCollisions (commands.map (·.definition)) e) ∧
    ∀ r, ofCommands (.table t) rejectCollisions commands = .ok r →
      (∀ keyword c, r.lookup? keyword = some c ↔ ∃ i : Nat, commands[i]? = some c ∧
        keyword ∈ c.definition.keywords ∧
        ∀ j < i, ∀ b : Command, commands[j]? = some b → keyword ∉ b.definition.keywords) ∧
      (rejectCollisions = true → ∀ (i : Nat) c, commands[i]? = some c →
        ∀ keyword ∈ c.definition.keywords, r.lookup? keyword = some c) := by
  refine ⟨fun _ => ofCommands_eq_ok_iff, fun _ => ofCommands_eq_error_iff, fun r made => ?_⟩
  obtain ⟨rfl, -, distinct⟩ := ofCommands_eq_ok_iff.1 made
  exact ⟨fun _ _ => lookup?_eq_some_iff,
    fun refused _ _ hc _ mine => lookup?_of_distinct (distinct refused) hc mine⟩

/-- Two commands without a common keyword, one of them with a tag. -/
def pets : List Command :=
  [{ definition := { name := "pet", aliases := ["p"], slots := [{ name := "times", tag := some "Int" }] } },
   { definition := { name := "feed", aliases := ["f", "food"], slots := [{ name := "what", rest := true }] } }]

theorem pets_found : ofCommands (.table [("Int", .integer)]) true pets = .ok ⟨pets⟩ ∧
    (Registry.mk pets).lookup? "food" = pets[1]? := by
  have made : ofCommands (.table [("Int", .integer)]) true pets = .ok ⟨pets⟩ := by rfl
  exact ⟨made, ((ofCommands_exact _ true pets).2.2 _ made).2 rfl 1 _ rfl "food" (by decide)⟩

end Registry
end ChatCommands
