import ChatCommands.Argument.Parser
import ChatCommands.Definition.Grammar
import ChatCommands.Definition.Structure
import ChatCommands.Host.Message
import ChatCommands.Notice

set_option autoImplicit false

/-!
# Registries

A registry holds commands in the order of their registration and finds the first
that answers to a keyword. It is made in one go: if one command is not well
structured or has a slot with an unknown tag there is no registry at all, and
neither, if collisions are refused, when a keyword comes up twice.
-/
namespace ChatCommands
open Text

inductive RegistrationError where
  | unparsed (e : DefinitionError)
  | malformed (e : StructureError)
  | unknownTag (slot tag : String)
  | collision (keyword first second : String)
  | notCallable (definition : String)
  /-- the parsers cannot be looked up -/
  | noParsers (f : Fault)
  deriving DecidableEq, Repr

namespace RegistrationError

def label : RegistrationError → String
  | .unparsed e => e.label
  | .malformed e => e.label
  | .unknownTag .. => "UnknownArgTypeError"
  | .collision .. => "KeywordCollisionError"
  | .notCallable _ => "TypeError"
  | .noParsers f => f.label

def message : RegistrationError → String
  | .unparsed e => e.message
  | .malformed e => e.message
  | .unknownTag slot tag => "Arg " ++ slot ++ " declares unknown type " ++ quoted tag
  | .collision keyword first second =>
    "Keyword " ++ quoted keyword ++ " of command " ++ second ++ " is already used by command " ++
      first
  | .notCallable definition => "Command " ++ quoted definition ++ " has no callable execute"
  | .noParsers f => f.message

end RegistrationError

/-- What is to happen for a definition: the callback that runs the command and its guard. -/
structure Handler where
  execute : Option Callback
  guard : Option Callback := none

structure Registry where
  commands : List Command

namespace Registry

/-- The error of the first slot whose tag has no parser. -/
def checkTags (parsers : ParserSource) : List Slot → Except RegistrationError Unit
  | [] => .ok ()
  | s :: ss =>
    match parsers.knows s.tag with
    | .error f => .error (.noParsers f)
    | .ok true => checkTags parsers ss
    | .ok false => .error (.unknownTag s.name (s.tag.getD ""))

def checkDefinition (parsers : ParserSource) (d : Definition) : Except RegistrationError Unit := do
  d.check.mapError .malformed
  checkTags parsers d.slots

def checkDefinitions (parsers : ParserSource) : List Definition → Except RegistrationError Unit
  | [] => .ok ()
  | d :: ds => do
    checkDefinition parsers d
    checkDefinitions parsers ds

def claimedKeywords (ds : List Definition) : List (String × String) :=
  ds.flatMap fun d => d.keywords.map fun k => (k, d.name)

/-- Refuses the first keyword that is owned already. -/
def checkKeywords (owners : Assoc String) : List (String × String) → Except RegistrationError Unit
  | [] => .ok ()
  | (keyword, command) :: rest =>
    match owners.find? keyword with
    | some owner => .error (.collision keyword owner command)
    | none => checkKeywords (owners.put keyword command) rest

def ofCommands (parsers : ParserSource) (rejectCollisions : Bool) (commands : List Command) :
    Except RegistrationError Registry := do
  let ds := commands.map (·.definition)
  checkDefinitions parsers ds
  if rejectCollisions then checkKeywords [] (claimedKeywords ds)
  return ⟨commands⟩

/-- The command that a definition text and a handler make. -/
def commandOf (text : String) (handler : Handler) : Except RegistrationError Command :=
  match handler.execute with
  | some (.hook h) => do
    let definition ← (Definition.parse text).mapError .unparsed
    return { definition, execute := some (.hook h), guard := handler.guard.bind Callback.given? }
  | _ => .error (.notCallable text)

def ofDefinitions (parsers : ParserSource) (rejectCollisions : Bool) (entries : Assoc Handler) :
    Except RegistrationError Registry := do
  let commands ← entries.mapM fun e => commandOf e.1 e.2
  ofCommands parsers rejectCollisions commands

def lookup? (r : Registry) (keyword : String) : Option Command :=
  r.commands.find? (·.answersTo keyword)

def size (r : Registry) : Nat := r.commands.length

def notices (r : Registry) : List Notice :=
  r.commands.map (fun c => .definitionChecked c.name) ++
    r.commands.map fun c => .commandRegistered c.definition

/-- What the log says when the definitions of a registry are read. -/
def parseNotices (r : Registry) (texts : List String) : List Notice :=
  List.zipWith (fun t c => .definitionParsed t c.definition) texts r.commands

end Registry
end ChatCommands
