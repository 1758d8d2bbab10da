import ChatCommands.Argument.Parser
import ChatCommands.Engine.Basic

set_option autoImplicit false

/-!
# Binding arguments

The tokens of an invocation are bound to the slots of its command from left to
right, one token to each slot. A slot that takes the rest is bound to all tokens
that are left, joined by single spaces. When the tokens run out, every slot that
is left has to be optional; tokens that are left when the slots run out are
ignored. The first token that cannot be read decides.
-/
namespace ChatCommands
open Text

/-- Why arguments could not be bound. -/
inductive BindingError where
  | missing (slot : Slot)
  | invalid (slot : Slot) (token : String) (cause : Fault)
  /-- a fault that is not about an argument -/
  | escaped (f : Fault)
  deriving DecidableEq, Repr

namespace BindingError

def label : BindingError → String
  | .missing _ => "MissingRequiredArgumentError"
  | .invalid .. => "InvalidArgumentValueError"
  | .escaped f => f.label

def message : BindingError → String
  | .missing slot => "Missing required argument " ++ slot.name
  | .invalid slot token _ => "Invalid value " ++ quoted token ++ " for argument " ++ slot.name
  | .escaped f => f.message

end BindingError

namespace ArgumentParser
variable {σ : Type}

def run (host : Host σ) (message : Option Message) (slot : Slot) (token : String) :
    ArgumentParser → Engine σ (Except Fault Value)
  | .text => .done (.ok (.text token))
  | .integer => .done ((Argument.readInteger token).map .int)
  | .number => .done ((Argument.readNumber token).map .float)
  | .date strict patterns =>
    match Argument.readDate patterns token with
    | .ok d => .done (.ok (.date d))
    | .error f =>
      if strict || !f.isRefusal then .done (.error f)
      else do
        Engine.note (.dateUnread token)
        return .ok .noDate
  | .member resolver =>
    match Argument.readMention token, resolver with
    | .error f, _ => .done (.error f)
    | .ok _, .none => .done (.error .noResolver)
    | .ok _, .unusable type => .done (.error (.noAttribute type "resolve"))
    | .ok id, .hook h => do
      match ← Engine.runScript (host.resolve h id message) with
      | .ok .none => return .error (.unknownMember id)
      | r => return r
  | .host _ h => Engine.runScript (host.parse h token slot message)

end ArgumentParser

namespace Argument
variable {σ : Type}

/-- The first slot that may not be left without a token. -/
def firstMissing? (slots : List Slot) : Option Slot := slots.find? (·.required)

/-- Binds tokens to slots after those that are bound. -/
def bindFrom (host : Host σ) (parsers : ParserSource) (message : Option Message)
    (bound : Assoc Value) : List Slot → List String → Engine σ (Except BindingError (Assoc Value))
  | [], _ => .done (.ok bound)
  | slot :: slots, [] =>
    match firstMissing? (slot :: slots) with
    | some missing => .done (.error (.missing missing))
    | none => .done (.ok bound)
  | slot :: slots, token :: tokens =>
    if slot.rest then
      let rest := unwords (token :: tokens)
      bindFrom host parsers message (bound.put slot.name (.text rest)) slots []
    else
      match parsers.parser slot.tag with
      | .error f => .done (.error (.escaped f))
      | .ok parser => do
        match ← parser.run host message slot token with
        | .ok v => bindFrom host parsers message (bound.put slot.name v) slots tokens
        | .error f =>
          if !f.isOrdinary then return .error (.escaped f)
          Engine.note (if f.isRefusal then .argumentRefused slot.name f else .argumentFailed slot.name f)
          return .error (.invalid slot token f)

/-- Binds the tokens of an invocation to the slots of a command. -/
def bind (host : Host σ) (parsers : ParserSource) (message : Option Message) (slots : List Slot)
    (tokens : List String) : Engine σ (Except BindingError (Assoc Value)) :=
  bindFrom host parsers message [] slots tokens

end Argument
end ChatCommands
