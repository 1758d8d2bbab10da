import ChatCommands.Value.Written

set_option autoImplicit false

/-!
# Notices

Everything that the library reports in its log, one constructor for each kind of
notice, with the part of the library that it comes from, its level and its text.
-/
namespace ChatCommands
open Text

inductive Level where
  | debug
  | info
  | warning
  | error
  deriving DecidableEq, Repr

namespace Level

def rank : Level → Nat
  | .debug => 10
  | .info => 20
  | .warning => 30
  | .error => 40

def label : Level → String
  | .debug => "DEBUG"
  | .info => "INFO"
  | .warning => "WARNING"
  | .error => "ERROR"

end Level

/-- The part of the library that a notice comes from. -/
inductive Origin where
  | grammar
  | structureCheck
  | registry
  | arguments
  | cooldown
  | guard
  | events
  | dispatch
  | outcomeLog
  | faultLog
  | tally
  | gateway
  deriving DecidableEq, Repr

/-- The name under which the log shows a part of the library. -/
def Origin.label : Origin → String
  | .grammar => "herald.commands.grammar"
  | .structureCheck => "herald.commands.validation"
  | .registry => "herald.commands.registry"
  | .arguments => "herald.commands.parsers"
  | .cooldown => "herald.core.cooldown"
  | .guard => "herald.core.guards"
  | .events => "herald.core.event_system"
  | .dispatch => "herald.core.dispatcher"
  | .outcomeLog => "herald.middleware.logging"
  | .faultLog => "herald.middleware.error_handler"
  | .tally => "herald.middleware.analytics"
  | .gateway => "herald.adapters.hikari"

inductive Notice where
  | definitionParsed (text : String) (definition : Definition)
  | definitionChecked (command : String)
  | commandRegistered (definition : Definition)
  | parserRegistered (tag parser : String)
  | dateUnread (token : String)
  | argumentRefused (slot : String) (why : Fault)
  | argumentFailed (slot : String) (why : Fault)
  | alreadyInFlight (command : String)
  | guardRaised (command : String)
  | guardUndecided (command : String)
  | guardDenied (command : String) (reason : Value)
  | commandCalled (prelude keyword command : String)
  | executionFailed (command : String) (why : Fault)
  | replyFailed (why : Fault)
  | middlewareAdded (middleware : String)
  | middlewareRemoved (middleware : String)
  | listenerAdded (event listener : String)
  | listenerRemoved (event listener : String)
  | listenerUnknown (event listener : String)
  | eventStopped (event : String)
  | middlewareFailed (middleware : String) (afterwards : Bool) (why : Fault)
  | listenerFailed (event listener : String) (why : Fault)
  | eventStarted (event : Value)
  | eventCompleted (event : Value) (took : String)
  | commandFinished (command outcome took : String)
  | commandFailed (command outcome took : String)
  | commandCrashed (command : String) (why : Fault)
  | crashTrace (why : Fault)
  | listenerFaultSeen (event : Value) (what : Value)
  | invocationCounted (command outcome : String) (total : Nat)
  | memberNotFound (member : Nat) (guild : Value)
  | subscribed

namespace Notice

def level : Notice → Level
  | .commandRegistered _ | .guardDenied .. | .commandCalled .. | .commandFinished .. => .info
  | .argumentFailed .. | .guardUndecided _ | .listenerUnknown .. | .commandFailed .. => .warning
  | .guardRaised _ | .executionFailed .. | .replyFailed _ | .middlewareFailed .. | .listenerFailed ..
  | .commandCrashed .. | .crashTrace _ | .listenerFaultSeen .. => .error
  | _ => .debug

def origin : Notice → Origin
  | .definitionParsed .. => .grammar
  | .definitionChecked _ => .structureCheck
  | .commandRegistered _ => .registry
  | .parserRegistered .. | .dateUnread _ | .argumentRefused .. | .argumentFailed .. => .arguments
  | .alreadyInFlight _ => .cooldown
  | .guardRaised _ | .guardUndecided _ | .guardDenied .. => .guard
  | .commandCalled .. | .executionFailed .. | .replyFailed _ => .dispatch
  | .middlewareAdded _ | .middlewareRemoved _ | .listenerAdded .. | .listenerRemoved ..
  | .listenerUnknown .. | .eventStopped _ | .middlewareFailed .. | .listenerFailed .. => .events
  | .eventStarted _ | .eventCompleted .. | .commandFinished .. | .commandFailed .. => .outcomeLog
  | .commandCrashed .. | .crashTrace _ | .listenerFaultSeen .. => .faultLog
  | .invocationCounted .. => .tally
  | .memberNotFound .. | .subscribed => .gateway

def text : Notice → String
  | .definitionParsed t d =>
    "Parsed command definition " ++ quoted t ++ ": " ++ d.name ++ " " ++ quotedList d.aliases ++ " " ++
      Slot.literals d.slots
  | .definitionChecked c => "Validated command " ++ c
  | .commandRegistered d =>
    "Registered command: " ++ d.name ++ " (aliases: " ++ quotedList d.aliases ++ ")"
  | .parserRegistered tag parser => "Registered argument parser for type " ++ tag ++ ": " ++ parser
  | .dateUnread token => "Lenient date parsing: " ++ quoted token ++ " bound as invalid date"
  | .argumentRefused slot why | .argumentFailed slot why =>
    "Error parsing argument " ++ slot ++ ": " ++ why.message
  | .alreadyInFlight c => "Command " ++ c ++ " blocked: already in flight"
  | .guardRaised c => "guard() for command " ++ c ++ " raised, defaulting to no access"
  | .guardUndecided c =>
    "guard() function for command " ++ c ++ " did not call ok() or error(), defaulting to no access"
  | .guardDenied c reason => "Command " ++ c ++ " blocked by guard: " ++ reason.literal
  | .commandCalled prelude keyword c => "Command called: " ++ prelude ++ keyword ++ " -> " ++ c
  | .executionFailed c why => "Error executing command " ++ c ++ ": " ++ why.message
  | .replyFailed why => "Failed to reply with argument error: " ++ why.message
  | .middlewareAdded m => "Added middleware: " ++ m
  | .middlewareRemoved m => "Removed middleware: " ++ m
  | .listenerAdded e l => "Added listener for " ++ e ++ ": " ++ l
  | .listenerRemoved e l => "Removed listener for " ++ e ++ ": " ++ l
  | .listenerUnknown e l => "Listener " ++ l ++ " not found for " ++ e
  | .eventStopped e => "Event " ++ e ++ " stopped by middleware"
  | .middlewareFailed m afterwards why =>
    "Error in middleware " ++ m ++ (if afterwards then " (post)" else "") ++ ": " ++ why.message
  | .listenerFailed e l why => "Error in listener " ++ l ++ " for " ++ e ++ ": " ++ why.message
  | .eventStarted e => "Event started: " ++ e.shown
  | .eventCompleted e took => "Event completed: " ++ e.shown ++ took
  | .commandFinished c outcome took => "Command " ++ c ++ " finished: " ++ outcome ++ took
  | .commandFailed c outcome took => "Command " ++ c ++ " failed: " ++ outcome ++ took
  | .commandCrashed c why => "Unhandled error in command " ++ c ++ ": " ++ why.message
  | .crashTrace why => "Traceback: " ++ why.literal
  | .listenerFaultSeen e what => "Listener error in event " ++ e.shown ++ ": " ++ what.literal
  | .invocationCounted c outcome total =>
    "Analytics: " ++ c ++ " -> " ++ outcome ++ " (total: " ++ toString total ++ ")"
  | .memberNotFound member guild =>
    "Member " ++ toString member ++ " not found in guild " ++ guild.shown
  | .subscribed => "Subscribed command dispatcher to guild messages"

end Notice
end ChatCommands
