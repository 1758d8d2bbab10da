import Mathlib
import ChatCommands.Dispatch.Dispatcher
import ChatCommands.Proofs.BindingLaw
import ChatCommands.Proofs.RegistryConstruction

set_option autoImplicit false

/-!
# Two sources of options

A dispatcher is given options that were read from settings, or it reads them from
the settings of its surroundings. What is given by name changes both in the same
way: it replaces what the settings provide, and all of it that cannot be read and
all names that are unknown are reported. Two names are the exception. In the
second way they are not names of options, but arguments of the reading itself.
-/
namespace ChatCommands

namespace Assoc
variable {α : Type} {d given : Assoc α} {key : String}

theorem lookup_reverse (once : given.keys.Nodup) (key : String) :
    given.reverse.lookup key = given.find? key := by
  rw [← find?_ofList, ofList_of_nodup once]

theorem find?_putAll_of_nodup (once : given.keys.Nodup) (d : Assoc α) (key : String) :
    (d.putAll given).find? key = (given.find? key).or (d.find? key) := by
  rw [find?_putAll, lookup_reverse once]

/-- Keys that are not there come in as they are given. -/
theorem filter_keys_putAll (once : given.keys.Nodup) {p : String → Bool} (old : ∀ key ∈ d.keys, p key = false) :
    (d.putAll given).keys.filter p = given.keys.filter p := by
  -- from the end: the last key that is given comes last or is there by then
  induction given using List.reverseRecOn with
  | nil => simpa [putAll, keys] using old
  | append_singleton given e ih =>
    have last : d.putAll (given ++ [e]) = (d.putAll given).put e.1 e.2 := by simp [putAll]
    have split : keys (given ++ [e]) = keys given ++ [e.1] := by simp [keys]
    obtain ⟨once, -, apart⟩ := List.nodup_append'.1 (split ▸ once)
    rw [last, keys_put, split, List.filter_append, ← ih once]
    by_cases there : e.1 ∈ (d.putAll given).keys
    · have skipped : p e.1 = false := by
        by_contra kept
        have mem := List.mem_filter.2 ⟨there, eq_true_of_ne_false kept⟩
        rw [ih once] at mem
        exact apart (List.mem_filter.1 mem).1 (List.mem_singleton_self _)
      simp [there, skipped]
    · rw [if_neg there, List.filter_append]

end Assoc

namespace Settings
variable {α : Type}

/-- Why a value cannot be read. -/
def complaintOf (read : Value → Except Complaint α) (v : Value) : Option Complaint :=
  match read v with
  | .ok _ => none
  | .error c => some c

/-- A value that is given under the name is read, and otherwise what was there stays. -/
inductive Takes (given : Assoc Value) (name : String) (read : Value → Except Complaint α) (was : α) : α → Prop
  | kept (absent : given.find? name = none) : Takes given name read was was
  | read {v : Value} {a : α} (there : given.find? name = some v) (ok : read v = .ok a) :
      Takes given name read was a

variable {given d : Assoc Value} {name : String} {read : Value → Except Complaint α} {was a : α}

/-- What is reported of the value that is given under the name. -/
def issueUnder (given : Assoc Value) (name : String) (complain : Value → Option Complaint) : Option Issue :=
  (given.find? name).bind fun v => (complain v).map (⟨name, ·⟩)

theorem field_issues (given : Assoc Value) (name : String) (was : α) (read : Value → Except Complaint α) :
    (field given name was read).issues = (issueUnder given name (complaintOf read)).toList := by
  unfold field issueUnder complaintOf
  cases found : given.find? name with
  | none => rfl
  | some v => cases reads : read v <;> simp [reads]

theorem Takes.readable (h : Takes given name read was a) : issueUnder given name (complaintOf read) = none := by
  cases h with
  | kept absent => rw [issueUnder, absent, Option.bind_none]
  | read there ok => simp [issueUnder, there, complaintOf, ok]

/-- What is there under the name is read as this. -/
def Stands (d : Assoc Value) (name : String) (read : Value → Except Complaint α) (was : α) : Prop :=
  ∃ v, d.find? name = some v ∧ read v = .ok was

theorem issueUnder_putAll (once : given.keys.Nodup) (stands : Stands d name read was) :
    issueUnder (d.putAll given) name (complaintOf read) = issueUnder given name (complaintOf read) := by
  obtain ⟨w, there, reads⟩ := stands
  unfold issueUnder
  rw [Assoc.find?_putAll_of_nodup once, there]
  cases given.find? name with
  | none => simp [complaintOf, reads]
  | some v => rfl

/-- The default is not used where a value that can be read is replaced by one that can. -/
theorem field_putAll (once : given.keys.Nodup) (stands : Stands d name read was) (default : α)
    (readable : issueUnder given name (complaintOf read) = none) :
    (field (d.putAll given) name default read).value = (field given name was read).value := by
  obtain ⟨w, there, reads⟩ := stands
  unfold field
  rw [Assoc.find?_putAll_of_nodup once, there]
  unfold issueUnder complaintOf at readable
  cases found : given.find? name with
  | none => simp [reads]
  | some v =>
    cases reads' : read v with
    | error c => simp [found, reads'] at readable
    | ok a => simp [reads']

end Settings

namespace Options
open Settings
variable {s : Settings} {o o' : Options} {given : Assoc Value}

/-- How the options are read. -/
def readers : List (String × (Value → Option Complaint)) :=
  [("prelude", complaintOf readText), ("cooldown", complaintOf readOptionalDuration),
   ("strict_dates", complaintOf readFlag), ("reject_alias_collisions", complaintOf readFlag),
   ("track_in_flight", complaintOf readFlag), ("reply_on_argument_errors", complaintOf readFlag)]

/-- What is wrong with giving the value under the name. -/
def complaint? (name : String) (v : Value) : Option Complaint :=
  match readers.lookup name with
  | some read => read v
  | none => some .unknownName

/-- What is wrong with the options that are given: first with those that are known, in a fixed order, and
then with the unknown names as they are given. -/
def issuesOf (given : Assoc Value) : List Issue :=
  (names.filterMap fun name => issueUnder given name (complaint? name)) ++
    (given.keys.filter (!names.contains ·)).map fun name => ⟨name, .unknownName⟩

/-- The options that the settings provide, where a cooldown of zero is none. -/
def provided (s : Settings) : Options where
  prelude := s.prelude
  cooldown := if s.cooldown = 0 then none else some s.cooldown
  strictDates := s.strictDates
  rejectAliasCollisions := s.rejectAliasCollisions
  trackInFlight := s.trackInFlight
  replyOnArgumentErrors := s.replyOnArgumentErrors

/-- The values are read as the options. -/
structure Holds (d : Assoc Value) (o : Options) : Prop where
  keys : d.keys = names
  prelude : Stands d "prelude" readText o.prelude
  cooldown : Stands d "cooldown" readOptionalDuration o.cooldown
  strictDates : Stands d "strict_dates" readFlag o.strictDates
  rejectAliasCollisions : Stands d "reject_alias_collisions" readFlag o.rejectAliasCollisions
  trackInFlight : Stands d "track_in_flight" readFlag o.trackInFlight
  replyOnArgumentErrors : Stands d "reply_on_argument_errors" readFlag o.replyOnArgumentErrors

theorem issuesOf_eq (given : Assoc Value) : issuesOf given =
    (field given "prelude" "" readText).issues ++ (field given "cooldown" none readOptionalDuration).issues ++
    (field given "strict_dates" true readFlag).issues ++
    (field given "reject_alias_collisions" false readFlag).issues ++
    (field given "track_in_flight" false readFlag).issues ++
    (field given "reply_on_argument_errors" false readFlag).issues ++
    (given.keys.filter (!names.contains ·)).map fun name => ⟨name, .unknownName⟩ := by
  have known : names = ["prelude", "cooldown", "strict_dates", "reject_alias_collisions", "track_in_flight",
    "reply_on_argument_errors"] := rfl
  simp only [field_issues]
  rw [issuesOf, known, List.filterMap_eq_flatMap_toList]
  simp only [List.flatMap_cons, List.flatMap_nil, List.append_assoc, List.nil_append]
  rfl

theorem ofValues_eq (given : Assoc Value) : ofValues given =
    if issuesOf given = [] then
      .ok { prelude := (field given "prelude" "" readText).value
            cooldown := (field given "cooldown" none readOptionalDuration).value
            strictDates := (field given "strict_dates" true readFlag).value
            rejectAliasCollisions := (field given "reject_alias_collisions" false readFlag).value
            trackInFlight := (field given "track_in_flight" false readFlag).value
            replyOnArgumentErrors := (field given "reply_on_argument_errors" false readFlag).value }
    else .error (issuesOf given) := by
  rw [issuesOf_eq]
  rfl

theorem Holds.issuesOf_putAll {d : Assoc Value} (h : Holds d o) (once : given.keys.Nodup) :
    issuesOf (d.putAll given) = issuesOf given := by
  have unknown : (d.putAll given).keys.filter (!names.contains ·) = given.keys.filter (!names.contains ·) :=
    Assoc.filter_keys_putAll once fun key mem => by simpa [h.keys] using mem
  simp only [issuesOf_eq, field_issues]
  rw [unknown, issueUnder_putAll once h.prelude, issueUnder_putAll once h.cooldown,
    issueUnder_putAll once h.strictDates, issueUnder_putAll once h.rejectAliasCollisions,
    issueUnder_putAll once h.trackInFlight, issueUnder_putAll once h.replyOnArgumentErrors]

/-- The options, with what is given in the place of what was there. -/
def taking (given : Assoc Value) (o : Options) : Options where
  prelude := (field given "prelude" o.prelude readText).value
  cooldown := (field given "cooldown" o.cooldown readOptionalDuration).value
  strictDates := (field given "strict_dates" o.strictDates readFlag).value
  rejectAliasCollisions := (field given "reject_alias_collisions" o.rejectAliasCollisions readFlag).value
  trackInFlight := (field given "track_in_flight" o.trackInFlight readFlag).value
  replyOnArgumentErrors := (field given "reply_on_argument_errors" o.replyOnArgumentErrors readFlag).value

theorem issueUnder_of_nil (none : issuesOf given = []) {name : String} (known : name ∈ names) :
    issueUnder given name (complaint? name) = .none :=
  List.filterMap_eq_nil_iff.1 (List.append_eq_nil_iff.1 none).1 name known

theorem Holds.ofValues_putAll {d : Assoc Value} (h : Holds d o) (once : given.keys.Nodup) :
    ofValues (d.putAll given) = if issuesOf given = [] then .ok (o.taking given) else .error (issuesOf given) := by
  rw [ofValues_eq, h.issuesOf_putAll once]
  split
  case isFalse => rfl
  case isTrue none =>
    have readable {name : String} (known : name ∈ names) := issueUnder_of_nil none known
    rw [taking, field_putAll once h.prelude _ (readable (by decide)),
      field_putAll once h.cooldown _ (readable (by decide)),
      field_putAll once h.strictDates _ (readable (by decide)),
      field_putAll once h.rejectAliasCollisions _ (readable (by decide)),
      field_putAll once h.trackInFlight _ (readable (by decide)),
      field_putAll once h.replyOnArgumentErrors _ (readable (by decide))]

/-- The options with what is given, or all that is wrong with it. -/
def outcome (given : Assoc Value) (o : Options) : Except Refusal Options :=
  if issuesOf given = [] then .ok (o.taking given) else .error (.issues (issuesOf given))

theorem Holds.outcome {d : Assoc Value} (h : Holds d o) (once : given.keys.Nodup) :
    (ofValues (d.putAll given)).mapError .issues = outcome given o := by
  rw [h.ofValues_putAll once, Options.outcome]
  split <;> rfl

end Options

namespace Dispatcher
open Options
variable {s : Settings} {given : Assoc Value} {e : Equipment} {source : CommandSource} {o : Options}

end Dispatcher
end ChatCommands
