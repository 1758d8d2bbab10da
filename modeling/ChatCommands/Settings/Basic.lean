import ChatCommands.Settings.Reading

set_option autoImplicit false

/-!
# Settings and options

The settings are what the surroundings of a program provide, and the options
what one dispatcher is made with. Options that are not given are taken from the
settings, where a cooldown of zero stands for none.
-/
namespace ChatCommands

structure Settings where
  prelude : String := ""
  /-- milliseconds -/
  cooldown : Nat := 0
  strictDates : Bool := true
  replyOnArgumentErrors : Bool := false
  rejectAliasCollisions : Bool := false
  trackInFlight : Bool := false
  logLevel : String := "INFO"
  deriving DecidableEq, Repr, Inhabited

namespace Settings

def toValues (s : Settings) : Assoc Value :=
  [("prelude", .text s.prelude), ("cooldown_ms", .int s.cooldown),
   ("strict_dates", .bool s.strictDates),
   ("reply_on_argument_errors", .bool s.replyOnArgumentErrors),
   ("reject_alias_collisions", .bool s.rejectAliasCollisions),
   ("track_in_flight", .bool s.trackInFlight), ("log_level", .text s.logLevel)]

def names : List String := (toValues default).keys

/-- Reads the settings. Names that are not known are ignored. -/
def ofValues (given : Assoc Value) : Except (List Issue) Settings :=
  let prelude := field given "prelude" "" readText
  let cooldown := field given "cooldown_ms" 0 readDuration
  let strictDates := field given "strict_dates" true readFlag
  let reply := field given "reply_on_argument_errors" false readFlag
  let reject := field given "reject_alias_collisions" false readFlag
  let track := field given "track_in_flight" false readFlag
  let logLevel := field given "log_level" "INFO" readText
  let issues := prelude.issues ++ cooldown.issues ++ strictDates.issues ++ reply.issues ++
    reject.issues ++ track.issues ++ logLevel.issues
  if issues = [] then
    .ok { prelude := prelude.value, cooldown := cooldown.value, strictDates := strictDates.value,
          replyOnArgumentErrors := reply.value, rejectAliasCollisions := reject.value,
          trackInFlight := track.value, logLevel := logLevel.value }
  else .error issues

end Settings

structure Options where
  prelude : String := ""
  /-- milliseconds; nothing and zero both disable cooldowns -/
  cooldown : Option Nat := none
  strictDates : Bool := true
  rejectAliasCollisions : Bool := false
  trackInFlight : Bool := false
  replyOnArgumentErrors : Bool := false
  deriving DecidableEq, Repr, Inhabited

namespace Options
open Settings

def toValues (o : Options) : Assoc Value :=
  [("prelude", .text o.prelude), ("cooldown", o.cooldown.elim .none fun n => .int n),
   ("strict_dates", .bool o.strictDates),
   ("reject_alias_collisions", .bool o.rejectAliasCollisions),
   ("track_in_flight", .bool o.trackInFlight),
   ("reply_on_argument_errors", .bool o.replyOnArgumentErrors)]

def names : List String := (toValues default).keys

/-- Reads the options. Names that are not known are refused, after all others. -/
def ofValues (given : Assoc Value) : Except (List Issue) Options :=
  let prelude := field given "prelude" "" readText
  let cooldown := field given "cooldown" none readOptionalDuration
  let strictDates := field given "strict_dates" true readFlag
  let reject := field given "reject_alias_collisions" false readFlag
  let track := field given "track_in_flight" false readFlag
  let reply := field given "reply_on_argument_errors" false readFlag
  let unknown := (given.keys.filter (!names.contains ·)).map fun n => ⟨n, .unknownName⟩
  let issues := prelude.issues ++ cooldown.issues ++ strictDates.issues ++ reject.issues ++
    track.issues ++ reply.issues ++ unknown
  if issues = [] then
    .ok { prelude := prelude.value, cooldown := cooldown.value, strictDates := strictDates.value,
          rejectAliasCollisions := reject.value, trackInFlight := track.value,
          replyOnArgumentErrors := reply.value }
  else .error issues

/-- The options that the settings provide, as values. -/
def valuesOfSettings (s : Settings) : Assoc Value :=
  [("prelude", .text s.prelude), ("cooldown", if s.cooldown = 0 then .none else .int s.cooldown),
   ("strict_dates", .bool s.strictDates),
   ("reject_alias_collisions", .bool s.rejectAliasCollisions),
   ("track_in_flight", .bool s.trackInFlight),
   ("reply_on_argument_errors", .bool s.replyOnArgumentErrors)]

/-- Why there are no options. -/
inductive Refusal where
  | issues (found : List Issue)
  /-- the settings were replaced by a value that is none -/
  | noSettings (type : String)
  /-- what was called takes this argument in another way already -/
  | givenTwice (called argument : String)
  deriving DecidableEq, Repr

/-- The options that the settings provide, except for those that are given. -/
def merge (s : Settings) (given : Assoc Value) : Except Refusal Options :=
  (ofValues ((valuesOfSettings s).putAll given)).mapError .issues

/-- The name under which the settings themselves can be given. -/
def settingsArgument : String := "source"

/-- The name under which nothing can be given. -/
def reservedArgument : String := "cls"

/-- Refuses the first name given that is taken by what is called. -/
def refuseTaken (called : String) (taken : List String) (given : Assoc Value) :
    Except Refusal Unit :=
  match given.keys.find? (taken.contains ·) with
  | some name => .error (.givenTwice called name)
  | none => .ok ()

/-- How the reading of options from settings is called. -/
def fromSettings : String := "DispatcherOptions.from_settings"

/-- The options from settings that are handed over. -/
def ofSettings (s : Settings) (given : Assoc Value) : Except Refusal Options := do
  refuseTaken fromSettings [reservedArgument, settingsArgument] given
  merge s given

/-- The options from the settings of the surroundings, unless others are among those given. -/
def ofSurroundings (s : Settings) (given : Assoc Value) : Except Refusal Options := do
  refuseTaken fromSettings [reservedArgument] given
  match given.find? settingsArgument with
  | some v => .error (.noSettings v.typeName)
  | none => merge s given

/-- The same options, except for those that are given. -/
def override (o : Options) (given : Assoc Value) : Except Refusal Options :=
  (ofValues (o.toValues.putAll given)).mapError .issues

/-- The options that a dispatcher is made with: explicit ones, or else the settings of the
surroundings, changed by what is given. -/
def choose (s : Settings) (explicit : Option Options) (given : Assoc Value) :
    Except Refusal Options :=
  match explicit with
  | none => ofSurroundings s given
  | some o => if given.isEmpty then .ok o else o.override given

namespace Refusal

def label : Refusal → String
  | .issues _ => "ValidationError"
  | .noSettings _ => "AttributeError"
  | .givenTwice .. => "TypeError"

/-- What went wrong, apart from the settings that are listed. -/
def message : Refusal → String
  | .issues _ => ""
  | .noSettings type => "'" ++ type ++ "' object has no attribute 'prelude'"
  | .givenTwice called argument =>
    called ++ "() got multiple values for argument '" ++ argument ++ "'"

end Refusal
end Options
end ChatCommands
