import ChatCommands.Argument.Parser
import ChatCommands.Settings.Basic

set_option autoImplicit false

/-!
# What a dispatcher works with

Besides commands and options a dispatcher has something that looks up members,
parsers, a clock and an event system. Each can be given under its name among the
options. Nothing stands for the usual one, and so does what counts as false in
the place of parsers or a clock. Any other value is taken as it is, and fails
once the dispatcher uses it.
-/
namespace ChatCommands

/-- What cooldowns are measured by. -/
inductive Clock where
  /-- the clock of the host -/
  | host
  /-- the time of day -/
  | wall
  /-- a value of this type, which tells no time -/
  | unusable (type : String)
  deriving DecidableEq, Repr

namespace Clock

def fault? : Clock → Option Fault
  | .unusable type => some (.notCallable type)
  | _ => none

end Clock

/-- Where the events of a dispatcher go. -/
inductive EventOutlet where
  /-- an event system with the standard middleware -/
  | standard
  /-- an event system without middleware -/
  | bare
  /-- a value of this type, which is no event system -/
  | unusable (type : String)
  deriving DecidableEq, Repr

namespace EventOutlet

/-- Refuses to use a member of what is no event system. -/
def check : EventOutlet → String → Except Fault Unit
  | .unusable type, member => .error (.noAttribute type member)
  | _, _ => .ok ()

end EventOutlet

structure Equipment where
  resolver : MemberResolver := .none
  /-- parsers other than the standard ones -/
  parsers : Option ParserSource := none
  clock : Clock := .wall
  events : EventOutlet := .standard

namespace Equipment

def resolverName : String := "member_resolver"
def parsersName : String := "parser_factory"
def clockName : String := "clock"
def eventsName : String := "event_system"

def names : List String := [resolverName, parsersName, clockName, eventsName]

def resolverOf : Value → MemberResolver
  | .none => .none
  | v => .unusable v.typeName

def parsersOf (v : Value) : Option ParserSource :=
  if v.isTruthy then some (.unusable v.typeName) else none

def clockOf (v : Value) : Clock := if v.isTruthy then .unusable v.typeName else .wall

def eventsOf : Value → EventOutlet
  | .none => .standard
  | v => .unusable v.typeName

def replace (e : Equipment) (given : Assoc Value) : Equipment where
  resolver := ((given.find? resolverName).map resolverOf).getD e.resolver
  parsers := ((given.find? parsersName).map parsersOf).getD e.parsers
  clock := ((given.find? clockName).map clockOf).getD e.clock
  events := ((given.find? eventsName).map eventsOf).getD e.events

end Equipment
end ChatCommands
