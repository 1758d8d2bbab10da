import ChatCommands.Argument.Binding
import ChatCommands.Dispatch.Dispatcher
import ChatCommands.LogLevel

set_option autoImplicit false

/-!
# Error reports

How errors are shown. Errors of the library show the wider kinds of error that
they belong to and what they are about; settings that could not be read are shown
one by one; all others have a label and a message only.
-/
namespace ChatCommands

/-- What an error is about. -/
inductive Detail where
  | text (s : String)
  | slot (s : Slot)
  deriving DecidableEq, Repr

/-- An error of the library. -/
structure OwnError where
  label : String
  message : String
  /-- the wider kinds of error, from the narrowest on -/
  kinds : List String
  details : List (String × Detail) := []
  cause : Option Fault := none

inductive ErrorReport where
  | plain (label message : String)
  | own (e : OwnError)
  /-- what is wrong with the settings of some kind -/
  | settings (kind : String) (issues : List Settings.Issue)

namespace ErrorReport

/-- The widest kind of error of the library. -/
def widest : String := "HeraldError"

/-- The wider kinds of the faults that are errors of the library. -/
def faultKinds : List (String × List String) :=
  [("ArgumentConversionError", ["ValueError"]), (widest, [])]

def ofFault (f : Fault) : ErrorReport :=
  match faultKinds.lookup f.label with
  | some kinds => .own { label := f.label, message := f.message, kinds }
  | none => .plain f.label f.message

def ofDefinitionError (e : DefinitionError) : ErrorReport :=
  let detail := match e with
    | .missingName d => ("definition", Detail.text d)
    | .badDelimiters t | .typedRest t => ("token", .text t)
  .own { label := e.label, message := e.message, kinds := ["CommandDefinitionError", widest],
         details := [detail] }

def invalid (label message : String) (details : List (String × String)) : ErrorReport :=
  .own { label, message, kinds := ["CommandValidationError", widest],
         details := details.map fun d => (d.1, .text d.2) }

def ofStructureError (e : StructureError) : ErrorReport :=
  invalid e.label e.message (match e with
    | .duplicate name => [("arg_name", name)]
    | _ => [])

def ofRegistrationError (e : RegistrationError) : ErrorReport :=
  match e with
  | .unparsed d => ofDefinitionError d
  | .malformed d => ofStructureError d
  | .unknownTag slot tag => invalid e.label e.message [("arg_name", slot), ("type_name", tag)]
  | .collision keyword first second =>
    invalid e.label e.message [("keyword", keyword), ("first", first), ("second", second)]
  | .notCallable _ => .plain e.label e.message
  | .noParsers f => ofFault f

def ofBindingError (e : BindingError) : ErrorReport :=
  let own (details : List (String × Detail)) (cause : Option Fault) : ErrorReport :=
    .own { label := e.label, message := e.message, kinds := ["ArgumentResolutionError", widest],
           details, cause }
  match e with
  | .missing slot => own [("command_arg", .slot slot)] none
  | .invalid slot token cause =>
    own [("command_arg", .slot slot), ("provided_value", .text token)] (some cause)
  | .escaped f => ofFault f

def ofOptions (issues : List Settings.Issue) : ErrorReport := .settings "DispatcherOptions" issues

def ofSettings (issues : List Settings.Issue) : ErrorReport := .settings "HeraldSettings" issues

def ofRefusal (r : Options.Refusal) : ErrorReport :=
  match r with
  | .issues found => ofOptions found
  | r => .plain r.label r.message

def ofDispatcherError : DispatcherError → ErrorReport
  | .options r => ofRefusal r
  | .registration e => ofRegistrationError e
  | .fault f => ofFault f

def ofLevelRefusal (r : LogLevel.Refusal) : ErrorReport := .plain r.label r.message

end ErrorReport
end ChatCommands
