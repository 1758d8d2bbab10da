import Mathlib
import ChatCommands.Proofs.DeclarationOrder

set_option autoImplicit false

/-!
# What collecting sees

A name means a member of the object itself or of the first class that provides
it, whatever classes behind that one provide. Collecting goes through all names
that occur anywhere, each once and in the order in which they occur first, but it
takes what the name means. So a member that is hidden by another contributes
nothing, and the one that hides it contributes what it declares itself.
-/
namespace ChatCommands

namespace DeclaringObject
variable {o : DeclaringObject} {name : String} {m : Member} {names : List String}

/-- The most derived class that provides the name provides this under it. -/
def Provides (o : DeclaringObject) (name : String) (p : Provision) : Prop :=
  ∃ before c after, o.classes = before ++ c :: after ∧ c.provisions.find? name = some p ∧
    ∀ b ∈ before, b.provisions.find? name = none

def Unprovided (o : DeclaringObject) (name : String) : Prop :=
  ∀ c ∈ o.classes, c.provisions.find? name = none

/-- What classes provide under the name gives way to the object's own members. -/
def Yields (o : DeclaringObject) (name : String) : Prop :=
  o.Unprovided name ∨ ∃ m, o.Provides name (.member m)

/-- On the object the name means this member. -/
inductive Means (o : DeclaringObject) (name : String) : Member → Prop where
  | placed {m : Member} (room : o.Provides name .room) (own : o.placed.find? name = some m) : Means o name m
  | table (provided : o.Provides name .table) : Means o name (.ofValue o.table)
  | reference (provided : o.Provides name .reference) : Means o name (.ofValue .none)
  | own {m : Member} (yields : o.Yields name) (own : o.own.find? name = some m) : Means o name m
  | derived {m : Member} (provided : o.Provides name (.member m)) (absent : o.own.find? name = none) :
      Means o name m
  | inherited {m : Member} (unprovided : o.Unprovided name) (absent : o.own.find? name = none)
      (basic : o.inherited? name = some m) : Means o name m

theorem provision?_eq_some_iff {p : Provision} : o.provision? name = some p ↔ o.Provides name p :=
  List.findSome?_eq_some_iff

theorem provision?_eq_none_iff : o.provision? name = none ↔ o.Unprovided name :=
  List.findSome?_eq_none_iff

theorem means_iff : o.Means name m ↔ o.member? name = some m := by
  constructor
  · intro means
    unfold member?
    cases means with
    | placed room own => rw [provision?_eq_some_iff.2 room, own]
    | table provided | reference provided => rw [provision?_eq_some_iff.2 provided]
    | own yields own =>
      rcases yields with unprovided | ⟨m, provided⟩
      · simp only [provision?_eq_none_iff.2 unprovided, own, Option.some_or]
      · simp only [provision?_eq_some_iff.2 provided, own, Option.some_or]
    | derived provided absent => simp only [provision?_eq_some_iff.2 provided, absent, Option.none_or]
    | inherited unprovided absent basic =>
      simp only [provision?_eq_none_iff.2 unprovided, absent, Option.none_or, basic]
  · intro member
    unfold member? at member
    split at member
    case h_1 room => exact .placed (provision?_eq_some_iff.1 room) member
    case h_2 provided =>
      obtain rfl := Option.some.inj member
      exact .table (provision?_eq_some_iff.1 provided)
    case h_3 provided =>
      obtain rfl := Option.some.inj member
      exact .reference (provision?_eq_some_iff.1 provided)
    case h_4 m' provided =>
      rcases Option.or_eq_some_iff.1 member with own | ⟨absent, same⟩
      · exact .own (.inr ⟨m', provision?_eq_some_iff.1 provided⟩) own
      · obtain rfl := Option.some.inj same
        exact .derived (provision?_eq_some_iff.1 provided) absent
    case h_5 unprovided =>
      rcases Option.or_eq_some_iff.1 member with own | ⟨absent, basic⟩
      · exact .own (.inl (provision?_eq_none_iff.1 unprovided)) own
      · exact .inherited (provision?_eq_none_iff.1 unprovided) absent basic

theorem Means.unique {m' : Member} (h : o.Means name m) (h' : o.Means name m') : m = m' :=
  Option.some.inj ((means_iff.1 h).symm.trans (means_iff.1 h'))

/-- This member hides every other under the name: it is in the object's table, or there is none in the
table and it is that of the most derived class that provides the name. -/
def Hides (o : DeclaringObject) (name : String) (m : Member) : Prop :=
  o.Yields name ∧ o.own.find? name = some m ∨ o.Provides name (.member m) ∧ o.own.find? name = none

/-- Looking a name up is given no other meaning, and neither is the table. -/
structure Plain (o : DeclaringObject) : Prop where
  looksUp : o.Unprovided "__getattribute__" ∧ o.Unprovided "__getattr__"
  table : o.Provides ClassBody.tableName .table ∨ o.Unprovided ClassBody.tableName ∧ o.own = []

theorem Hides.means (h : o.Hides name m) : o.Means name m := by
  rcases h with ⟨yields, own⟩ | ⟨provided, absent⟩
  · exact .own yields own
  · exact .derived provided absent

end DeclaringObject
end ChatCommands
