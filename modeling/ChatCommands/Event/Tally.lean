import ChatCommands.Assoc

set_option autoImplicit false

/-!
# Tallies

How often each command came out in each way.
-/
namespace ChatCommands

/-- For each command, the count of each outcome. -/
abbrev Tally := Assoc (Assoc Nat)

namespace Tally

def count (t : Tally) (command outcome : String) : Nat :=
  (((t.find? command).getD []).find? outcome).getD 0

def add (t : Tally) (command outcome : String) : Tally :=
  t.put command (((t.find? command).getD []).put outcome (t.count command outcome + 1))

theorem count_add_self (t : Tally) (command outcome : String) :
    (t.add command outcome).count command outcome = t.count command outcome + 1 := by
  simp [count, add, Assoc.find?_put_self]

end Tally
end ChatCommands
