set_option autoImplicit false

/-!
# Shifted runs

A table from characters to characters can be short where many of them lie at the
same distance from what they become: it lists runs of code points, every one or
every second one, each with its distance. A run of one code point has the step one.
-/
namespace ChatCommands.Text

/-- The code points from `first` to `last`, `step` apart, and how far each is from what it becomes. -/
structure ShiftedRun where
  first : Nat
  last : Nat
  step : Nat
  distance : Int

def ShiftedRun.contains (r : ShiftedRun) (point : Nat) : Bool :=
  r.first ≤ point && point ≤ r.last && (point - r.first) % r.step == 0

/-- What a code point becomes, if a run has it. -/
def shifted? (runs : List ShiftedRun) (point : Nat) : Option Nat :=
  (runs.find? (·.contains point)).map fun r => ((point : Int) + r.distance).toNat

end ChatCommands.Text
