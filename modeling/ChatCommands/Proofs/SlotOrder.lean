import Mathlib
import ChatCommands.Proofs.BindingLaw

set_option autoImplicit false

/-!
# Which orders of slots are refused

The check of slots is one pass that looks back on what it has passed. What it
accepts is a condition on all pairs of slots, and what it refuses, it refuses at the
first slot with which the slots so far break that condition. Before that slot
nothing is wrong, so that of all earlier slots only the last can take the rest.
-/
namespace ChatCommands

/-- The error of slots with other names. -/
def StructureError.rename (f : String → String) : StructureError → StructureError
  | .afterRest slot => .afterRest (f slot)
  | .afterOptional slot => .afterOptional (f slot)
  | .duplicate slot => .duplicate (f slot)

namespace Slot
variable {before slots slots' : List Slot} {s s' : Slot} {e : StructureError} {f : String → String}

/-- Nothing follows a slot that takes the rest, no required slot follows an optional one, and names
are distinct. -/
structure Ordered (slots : List Slot) : Prop where
  restLast : slots.Pairwise fun s _ => s.rest = false
  optionalLast : slots.Pairwise fun s s' => s.required = false → s'.required = false
  distinct : (slots.map (·.name)).Nodup

/-- The error for a slot with which the slots `before` it break a rule. -/
inductive Blamed (before : List Slot) (s : Slot) : StructureError → Prop where
  | afterRest {b : Slot} (last : before.getLast? = some b) (rest : b.rest = true) :
      Blamed before s (.afterRest s.name)
  | afterOptional (last : ∀ b, before.getLast? = some b → b.rest = false)
      (required : s.required = true) (optional : ∃ b ∈ before, b.required = false) :
      Blamed before s (.afterOptional s.name)
  | duplicate (last : ∀ b, before.getLast? = some b → b.rest = false)
      (placed : s.required = true → ∀ b ∈ before, b.required = true)
      (seen : s.name ∈ before.map (·.name)) :
      Blamed before s (.duplicate s.name)

/-- The slot has another name, and any tag. -/
@[mk_iff renamed_iff]
structure Renamed (f : String → String) (s s' : Slot) : Prop where
  name : s'.name = f s.name
  required : s'.required = s.required
  rest : s'.rest = s.rest

theorem ordered_iff_pairwise : Ordered slots ↔ slots.Pairwise Precedes := by
  constructor
  · intro h
    exact (h.restLast.and (h.optionalLast.and (List.pairwise_map.1 h.distinct))).imp fun h => h
  · intro h
    exact ⟨h.imp fun precedes => precedes.1, h.imp fun precedes => precedes.2.1,
      List.pairwise_map.2 (h.imp fun precedes => precedes.2.2)⟩

theorem Ordered.take (h : Ordered slots) (n : Nat) : Ordered (slots.take n) :=
  ordered_iff_pairwise.2 ((ordered_iff_pairwise.1 h).sublist (List.take_sublist n slots))

theorem ordered_append_singleton :
    Ordered (before ++ [s]) ↔ Ordered before ∧ s.breaks? before = none := by
  rw [ordered_iff_pairwise, ordered_iff_pairwise, List.pairwise_append, breaks?_eq_none_iff]
  simp

theorem checkAfter_eq_error_iff :
    checkAfter before slots = .error e ↔ ∃ between s after, slots = between ++ s :: after ∧
      checkAfter before between = .ok () ∧ s.breaks? (before ++ between) = some e := by
  induction slots generalizing before with
  | nil => simp [checkAfter]
  | cons s slots ih =>
    cases h : s.breaks? before with
    | some e' =>
      rw [checkAfter, h]
      constructor
      · rintro ⟨⟩
        exact ⟨[], s, slots, rfl, rfl, by simpa using h⟩
      · rintro ⟨_ | ⟨b, between⟩, s', after, split, good, wrong⟩
        · obtain ⟨rfl, rfl⟩ := List.cons.inj split
          simp_all
        · obtain ⟨rfl, rfl⟩ := List.cons.inj split
          simp [checkAfter, h] at good
    | none =>
      rw [checkAfter, h]
      constructor
      · intro later
        obtain ⟨between, s', after, rfl, good, wrong⟩ := ih.1 later
        exact ⟨s :: between, s', after, rfl, by rw [checkAfter, h]; exact good, by simpa using wrong⟩
      · rintro ⟨_ | ⟨b, between⟩, s', after, split, good, wrong⟩
        · obtain ⟨rfl, rfl⟩ := List.cons.inj split
          simp [h] at wrong
        · obtain ⟨rfl, rfl⟩ := List.cons.inj split
          rw [checkAfter, h] at good
          exact ih.2 ⟨between, s', after, rfl, good, by simpa using wrong⟩

/-- The check fails at a slot that breaks a rule after slots that break none. -/
theorem check_eq_error_iff :
    check slots = .error e ↔ ∃ before s after, slots = before ++ s :: after ∧ Ordered before ∧
      s.breaks? before = some e := by
  simp only [check, checkAfter_eq_error_iff, List.nil_append, ordered_iff_pairwise, ← check_eq_ok_iff]

/-- Of slots in order only the last can take the rest. -/
theorem Ordered.any_rest_iff (h : Ordered before) :
    before.any (·.rest) = true ↔ ∃ b, before.getLast? = some b ∧ b.rest = true := by
  induction before using List.reverseRecOn with
  | nil => simp
  | append_singleton before b _ =>
    have earlier : ∀ a ∈ before, a.rest = false := by simpa [List.pairwise_append] using
      fun a ha => (List.pairwise_append.1 h.restLast).2.2 a ha b (by simp)
    have none : before.any (·.rest) = false := by simpa using earlier
    simp [none]

theorem breaks?_eq_some_iff (h : Ordered before) : s.breaks? before = some e ↔ Blamed before s e := by
  have last := h.any_rest_iff
  have notLast : before.any (·.rest) = false ↔ ∀ b, before.getLast? = some b → b.rest = false := by
    rw [← Bool.not_eq_true, last]
    simp
  unfold breaks?
  constructor
  · intro broken
    split at broken
    · next rest =>
      cases broken
      obtain ⟨b, hb, rest⟩ := last.1 rest
      exact .afterRest hb rest
    · next noRest =>
      have noRest := notLast.1 (by simpa using noRest)
      split at broken
      · next misplaced =>
        cases broken
        obtain ⟨optional, required⟩ := Bool.and_eq_true_iff.1 misplaced
        exact .afterOptional noRest required (by simpa using optional)
      · next placed =>
        split at broken
        · next seen =>
          cases broken
          refine .duplicate noRest (fun required b hb => ?_) (by simpa using seen)
          simp only [required, Bool.and_true, List.any_eq_true, Bool.not_eq_true', not_exists, not_and,
            Bool.not_eq_false] at placed
          exact placed b hb
        · cases broken
  · intro blamed
    cases blamed with
    | afterRest hb rest => rw [if_pos (last.2 ⟨_, hb, rest⟩)]
    | afterOptional noRest required optional =>
      have misplaced : (before.any (!·.required) && s.required) = true := by simpa [required] using optional
      rw [if_neg (by simpa using notLast.2 noRest), if_pos misplaced]
    | duplicate noRest placed seen =>
      have fine : ¬ (before.any (!·.required) && s.required) = true := by
        rw [Bool.and_eq_true_iff, List.any_eq_true]
        rintro ⟨⟨b, hb, optional⟩, required⟩
        simp [placed required b hb] at optional
      rw [if_neg (by simpa using notLast.2 noRest), if_neg fine, if_pos (by simpa using seen)]

/-- The first slot that breaks a rule stands at the least place up to which the slots break one. -/
theorem isLeast_of_split {after : List Slot} (h : Ordered before) (broken : s.breaks? before = some e) :
    IsLeast {i | ¬ Ordered ((before ++ s :: after).take (i + 1))} before.length := by
  constructor
  · have upTo : (before ++ s :: after).take (before.length + 1) = before ++ [s] := by
      simp [List.take_append]
    simp [upTo, ordered_append_singleton, broken]
  · intro i disorder
    by_contra early
    have within : (before ++ s :: after).take (i + 1) = before.take (i + 1) :=
      List.take_append_of_le_length (by omega)
    exact disorder (within ▸ h.take _)

section Renaming

theorem any_eq_of_renamed {p p' : Slot → Bool} (renamed : List.Forall₂ (Renamed f) slots slots')
    (same : ∀ s ∈ slots, ∀ s', Renamed f s s' → p' s' = p s) : slots'.any p' = slots.any p := by
  induction renamed with
  | nil => rfl
  | @cons s s' slots slots' first _ ih =>
    obtain ⟨here, later⟩ := List.forall_mem_cons.1 same
    rw [List.any_cons, List.any_cons, here s' first, ih later]

theorem breaks?_of_renamed {before' : List Slot} (renamed : List.Forall₂ (Renamed f) before before')
    (this : Renamed f s s') (distinct : ∀ b ∈ before, f b.name = f s.name → b.name = s.name) :
    s'.breaks? before' = (s.breaks? before).map (·.rename f) := by
  have rest : before'.any (·.rest) = before.any (·.rest) :=
    any_eq_of_renamed renamed fun b _ b' h => h.rest
  have optional : before'.any (!·.required) = before.any (!·.required) :=
    any_eq_of_renamed renamed fun b _ b' h => by rw [h.required]
  have seen : before'.any (·.name == s'.name) = before.any (·.name == s.name) :=
    any_eq_of_renamed renamed fun b hb b' h => by
      rw [h.name, this.name, Bool.eq_iff_iff, beq_iff_eq, beq_iff_eq]
      exact ⟨distinct b hb, congrArg f⟩
  unfold breaks?
  rw [rest, optional, seen, this.required, this.name]
  split_ifs <;> rfl

theorem checkAfter_of_renamed {before' : List Slot} (past : List.Forall₂ (Renamed f) before before')
    (renamed : List.Forall₂ (Renamed f) slots slots')
    (distinct : Set.InjOn f {n | n ∈ (before ++ slots).map (·.name)}) :
    checkAfter before' slots' = (checkAfter before slots).mapError (·.rename f) := by
  induction renamed generalizing before before' with
  | nil => rfl
  | @cons s s' slots slots' this _ ih =>
    have apart : ∀ b ∈ before, f b.name = f s.name → b.name = s.name := fun b hb same =>
      distinct (List.mem_map_of_mem (List.mem_append_left _ hb)) (List.mem_map_of_mem (by simp)) same
    rw [checkAfter, checkAfter, breaks?_of_renamed past this apart]
    cases s.breaks? before with
    | some e => rfl
    | none => exact ih (List.rel_append past (.cons this .nil)) (by simpa using distinct)

end Renaming

/-- The check of slots against the condition on all of them. -/
theorem check_exact (slots : List Slot) :
    (check slots = .ok () ↔ Ordered slots) ∧
    (¬ Ordered slots → ∃ i s e, IsLeast {i | ¬ Ordered (slots.take (i + 1))} i ∧ slots[i]? = some s ∧
      Blamed (slots.take i) s e ∧ check slots = .error e) ∧
    ∀ (f : String → String) (slots' : List Slot), Set.InjOn f {n | n ∈ slots.map (·.name)} →
      List.Forall₂ (Renamed f) slots slots' → check slots' = (check slots).mapError (·.rename f) := by
  have accepted : check slots = .ok () ↔ Ordered slots := check_eq_ok_iff.trans ordered_iff_pairwise.symm
  refine ⟨accepted, fun disorder => ?_, fun f slots' distinct renamed =>
    checkAfter_of_renamed .nil renamed distinct⟩
  cases refused : check slots with
  | ok u => exact absurd (accepted.1 refused) disorder
  | error e =>
    obtain ⟨before, s, after, rfl, h, broken⟩ := check_eq_error_iff.1 refused
    refine ⟨before.length, s, e, isLeast_of_split h broken, by simp, ?_, rfl⟩
    simpa using (breaks?_eq_some_iff h).1 broken

/-- Of the three rules that the last of these slots breaks, the one on what takes the rest is named,
also where names and tags are others. -/
theorem check_exact_crossed :
    ¬ Ordered [⟨"a", false, false, none⟩, ⟨"b", false, true, none⟩, ⟨"a", true, false, none⟩] ∧
    Blamed [⟨"a", false, false, none⟩, ⟨"b", false, true, none⟩] ⟨"a", true, false, none⟩ (.afterRest "a") ∧
    check [⟨"x", false, false, some "Int"⟩, ⟨"b", false, true, none⟩, ⟨"x", true, false, none⟩] =
      .error (.afterRest "x") := by
  obtain ⟨accepted, -, others⟩ :=
    check_exact [⟨"a", false, false, none⟩, ⟨"b", false, true, none⟩, ⟨"a", true, false, none⟩]
  have refused : check [⟨"a", false, false, none⟩, ⟨"b", false, true, none⟩, ⟨"a", true, false, none⟩] =
      .error (.afterRest "a") := by decide
  refine ⟨fun ordered => ?_, .afterRest rfl rfl, ?_⟩
  · cases refused.symm.trans (accepted.2 ordered)
  · have renamed : List.Forall₂ (Renamed fun n => if n = "a" then "x" else n)
        [⟨"a", false, false, none⟩, ⟨"b", false, true, none⟩, ⟨"a", true, false, none⟩]
        [⟨"x", false, false, some "Int"⟩, ⟨"b", false, true, none⟩, ⟨"x", true, false, none⟩] := by
      simp [Slot.renamed_iff]
    rw [others _ _ (by simp [Set.InjOn]) renamed, refused]
    rfl

end Slot
end ChatCommands
