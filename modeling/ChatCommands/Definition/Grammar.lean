import ChatCommands.Definition.Basic
import ChatCommands.Text.Blank
import ChatCommands.Text.Quoted

set_option autoImplicit false

/-!
# The text of a definition

A definition is written as words: first the name and the aliases, separated by
bars, then one word for each slot. A required slot stands in angle brackets and
an optional one in square brackets. Inside is the slot's name, with its tag after
a colon if it has one, or three points and the name of a slot that takes the rest.

    pet|p <name> [times:Int]
    say <channel> <...text>

`Definition.parse` reads such a text and `Definition.format` writes it with
single spaces.
-/
namespace ChatCommands
open Text

/-- Why a text is not a definition. -/
inductive DefinitionError where
  | missingName (definition : String)
  | badDelimiters (token : String)
  | typedRest (token : String)
  deriving DecidableEq, Repr

namespace DefinitionError

def label : DefinitionError → String
  | .missingName _ => "MissingCommandName"
  | .badDelimiters _ => "InvalidArgDelimiters"
  | .typedRest _ => "RestArgTypeNotAllowed"

def message : DefinitionError → String
  | .missingName d => "Invalid command string " ++ quoted d ++ ": missing name"
  | .badDelimiters t => "Invalid arg " ++ quoted t ++ ": args must be wrapped in <...> or [...]"
  | .typedRest t => "Invalid arg " ++ quoted t ++ ": rest args cannot declare a type"

end DefinitionError

namespace Slot

/-- The closing bracket for an opening one, and whether such a slot is required. -/
def bracket? : Char → Option (Char × Bool)
  | '<' => some ('>', true)
  | '[' => some (']', false)
  | _ => none

/-- The text between the brackets of a token, and whether the slot is required. -/
def body? : List Char → Option (Bool × List Char)
  | [] => none
  | opening :: cs =>
    match bracket? opening with
    | none => none
    | some (closing, required) =>
      if cs.getLast? = some closing then some (required, cs.dropLast) else none

/-- A slot with the given text between its brackets. -/
def ofBody (token : String) (required : Bool) : List Char → Except DefinitionError Slot
  | '.' :: '.' :: '.' :: name =>
    if name.contains ':' then .error (.typedRest token)
    else if name = [] then .error (.badDelimiters token)
    else .ok { name := String.ofList name, required, rest := true }
  | body =>
    let name := body.takeWhile (· ≠ ':')
    let tag := (body.dropWhile (· ≠ ':')).drop 1
    if name = [] then .error (.badDelimiters token)
    else .ok { name := String.ofList name, required,
               tag := if tag = [] then none else some (String.ofList tag) }

def parse (token : String) : Except DefinitionError Slot :=
  match body? token.toList with
  | none => .error (.badDelimiters token)
  | some (required, body) => ofBody token required body

def format (s : Slot) : String :=
  let marked := if s.rest then "..." ++ s.name else s.name
  let body := match s.tag with
    | none => marked
    | some tag => if tag = "" then marked else marked ++ ":" ++ tag
  if s.required then "<" ++ body ++ ">" else "[" ++ body ++ "]"

end Slot

namespace Definition

/-- The text up to the first bar, and the pieces between and after the bars. -/
def splitBars : List Char → List Char × List (List Char)
  | [] => ([], [])
  | c :: cs =>
    if c = '|' then ([], (splitBars cs).1 :: (splitBars cs).2)
    else (c :: (splitBars cs).1, (splitBars cs).2)

def parse (text : String) : Except DefinitionError Definition :=
  match words text with
  | [] => .error (.missingName text)
  | head :: tokens =>
    let (name, aliases) := splitBars head.toList
    if name = [] then .error (.missingName text)
    else do
      let slots ← tokens.mapM Slot.parse
      return { name := String.ofList name, aliases := aliases.map String.ofList, slots }

def format (d : Definition) : String :=
  unwords ("|".intercalate d.keywords :: d.slots.map Slot.format)

end Definition
end ChatCommands
