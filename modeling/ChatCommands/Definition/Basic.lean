set_option autoImplicit false

/-!
# Command definitions

A command answers to a name and its aliases and takes arguments by position. A
slot describes one argument: whether it has to be given, whether it takes the
rest of the message, and the tag that says how its text is read.
-/
namespace ChatCommands

/-- One positional argument of a command. -/
structure Slot where
  name : String
  required : Bool := true
  rest : Bool := false
  tag : Option String := none
  deriving DecidableEq, Repr, Inhabited

/-- What a command answers to and what it takes. -/
structure Definition where
  name : String
  aliases : List String := []
  slots : List Slot := []
  deriving DecidableEq, Repr, Inhabited

namespace Definition

/-- The words that invoke the command, its name first. -/
def keywords (d : Definition) : List String := d.name :: d.aliases

def answersTo (d : Definition) (keyword : String) : Bool := d.keywords.contains keyword

theorem answersTo_iff_mem_keywords (d : Definition) (keyword : String) :
    d.answersTo keyword = true ↔ keyword ∈ d.keywords := by
  simp [answersTo]

end Definition
end ChatCommands
