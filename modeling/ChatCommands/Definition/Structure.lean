import ChatCommands.Definition.Basic

set_option autoImplicit false

/-!
# The structure of a definition

Arguments are bound by position, so nothing may follow a slot that takes the
rest, no required slot may follow an optional one, and names are distinct. The
first slot that breaks a rule decides the error; of several rules that it
breaks, the one named first here.
-/
namespace ChatCommands

/-- Which rule a slot breaks. -/
inductive StructureError where
  | afterRest (slot : String)
  | afterOptional (slot : String)
  | duplicate (slot : String)
  deriving DecidableEq, Repr

namespace StructureError

def label : StructureError → String
  | .afterRest _ | .afterOptional _ => "ArgPositionError"
  | .duplicate _ => "DuplicateArgError"

def message : StructureError → String
  | .afterRest slot => "Invalid arg " ++ slot ++ " positioned after rest arg"
  | .afterOptional slot => "Invalid required arg " ++ slot ++ " positioned after optional arg"
  | .duplicate slot => "Duplicate arg name " ++ slot

end StructureError

namespace Slot

/-- The rule that a slot breaks after the slots `before` it. -/
def breaks? (before : List Slot) (s : Slot) : Option StructureError :=
  if before.any (·.rest) then some (.afterRest s.name)
  else if before.any (!·.required) && s.required then some (.afterOptional s.name)
  else if before.any (·.name == s.name) then some (.duplicate s.name)
  else none

/-- Checks the slots one by one, each against those before it. -/
def checkAfter (before : List Slot) : List Slot → Except StructureError Unit
  | [] => .ok ()
  | s :: ss =>
    match s.breaks? before with
    | some e => .error e
    | none => checkAfter (before ++ [s]) ss

def check (slots : List Slot) : Except StructureError Unit := checkAfter [] slots

end Slot

namespace Definition

def check (d : Definition) : Except StructureError Unit := Slot.check d.slots

end Definition
end ChatCommands
