import ChatCommands.Cooldown
import ChatCommands.Dispatch.Equipment
import ChatCommands.Event.Subscribers
import ChatCommands.Registry.Declaration

set_option autoImplicit false

/-!
# Dispatchers

A dispatcher has options, equipment and a registry. The commands come as
definitions with handlers, as commands, as declarations on an object, or in a
registry made beforehand; in the last case what was checked then is not checked
again. The declarations of an object are collected before the options are read.
-/
namespace ChatCommands

inductive CommandSource where
  | definitions (entries : Assoc Handler)
  | commands (cs : List Command)
  | registry (r : Registry)
  | object (o : DeclaringObject)

/-- Why there is no dispatcher. -/
inductive DispatcherError where
  | options (r : Options.Refusal)
  | registration (e : RegistrationError)
  | fault (f : Fault)

structure Dispatcher where
  options : Options := {}
  parsers : ParserSource := .table []
  registry : Registry
  clock : Clock := .host
  events : EventOutlet := .standard

namespace Dispatcher

/-- The parsers of a dispatcher: those it is given, or the standard ones. -/
def parsersFor (o : Options) (e : Equipment) : ParserSource :=
  e.parsers.getD (ParserTable.standard o.strictDates e.resolver)

def registryOf (parsers : ParserSource) (rejectCollisions : Bool) :
    CommandSource → Except DispatcherError Registry
  | .definitions entries =>
    (Registry.ofDefinitions parsers rejectCollisions entries).mapError .registration
  | .commands cs => (Registry.ofCommands parsers rejectCollisions cs).mapError .registration
  | .registry r => .ok r
  | .object o => do
    let entries ← o.collect.mapError .fault
    (Registry.ofDefinitions parsers rejectCollisions entries).mapError .registration

def build (options : Options) (e : Equipment) (source : CommandSource) :
    Except DispatcherError Dispatcher := do
  let parsers := parsersFor options e
  let registry ← registryOf parsers options.rejectAliasCollisions source
  return { options, parsers, registry, clock := e.clock, events := e.events }

/-- The name under which the options themselves can be given. -/
def optionsName : String := "options"

/-- The names that what is called takes itself: the options are among them if they are explicit. -/
def taken (explicit : Option Options) (names : List String) : List String :=
  if explicit.isSome then names ++ [optionsName] else names

/-- Collects the declarations of an object, for which some names cannot be given. -/
def collectFirst (explicit : Option Options) (given : Assoc Value) :
    CommandSource → Except DispatcherError Unit
  | .object o => do
    let names := taken explicit ["cls", "obj"]
    (Options.refuseTaken "CommandDispatcher.from_object" names given).mapError .options
    discard (o.collect.mapError .fault)
  | _ => .ok ()

/-- What is first missed in a value of some type that is given for the options. -/
def firstMissing (overridden parsersGiven : Bool) : CommandSource → String
  | .registry _ =>
    if overridden then "model_dump" else if parsersGiven then "cooldown" else "strict_dates"
  | _ =>
    if overridden then "model_dump"
    else if parsersGiven then "reject_alias_collisions" else "strict_dates"

/-- A dispatcher with explicit options, or else those of the settings of the surroundings, changed
by what is given. -/
def make (s : Settings) (explicit : Option Options) (given : Assoc Value) (e : Equipment)
    (source : CommandSource) : Except DispatcherError Dispatcher := do
  collectFirst explicit given source
  let names := taken explicit ["self", "commands"]
  (Options.refuseTaken "CommandDispatcher.__init__" names given).mapError .options
  let e := e.replace given
  let overrides := given.filter fun o => !(optionsName :: Equipment.names).contains o.1
  match (given.find? optionsName).getD .none with
  | .none => build (← (Options.choose s explicit overrides).mapError .options) e source
  | v =>
    let member := firstMissing (!overrides.isEmpty) e.parsers.isSome source
    .error (.fault (.noAttribute v.typeName member))

def notices (d : Dispatcher) : CommandSource → List Notice
  | .definitions entries => d.registry.parseNotices entries.keys ++ d.registry.notices
  | .commands _ => d.registry.notices
  | .registry _ => []
  | .object o =>
    d.registry.parseNotices (o.collect.toOption.getD []).keys ++ d.registry.notices

/-- The cooldowns at first: no run and none under way. -/
def tracker (d : Dispatcher) : Tracker :=
  { window := (d.options.cooldown.getD 0 : Nat), countsInFlight := d.options.trackInFlight }

end Dispatcher
end ChatCommands
