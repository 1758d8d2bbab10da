import ChatCommands.Host.Basic
import ChatCommands.Text.Digit

set_option autoImplicit false

/-!
# Chat gateways

A gateway hands over the messages of guilds. It knows some members already and
can ask for the others. Messages of bots are not dispatched. A member is looked
up in the message's guild: first among those that are known and then, unless one
was found that counts as true, by asking.
-/
namespace ChatCommands

structure Gateway (σ : Type) where
  /-- the member of a guild that is known by its number -/
  known : Value → Nat → Script σ Unit
  /-- asks for the member of a guild -/
  fetch : Value → Nat → Script σ Unit

/-- A message as the gateway hands it over. -/
structure GuildMessage where
  fromBot : Bool
  guild : Value
  content : Option String
  respond : Hook

namespace GuildMessage

/-- What is dispatched. A message without content has the empty content. -/
def message? (m : GuildMessage) : Option Message :=
  if m.fromBot then none
  else some { content := some (m.content.getD ""), reply := .oneWay m.respond, guild := m.guild }

end GuildMessage

namespace Gateway
variable {σ : Type}

/-- Refuses the first member whose guild or number cannot be a key. -/
def checkKeys : List (Value × Value) → Except Fault Unit
  | [] => .ok ()
  | (guild, user) :: rest => do
    discard guild.key?
    discard user.key?
    checkKeys rest

def note (n : Notice) : Script σ Unit := .ask (.effect (.note n)) fun _ => .done (.ok .none)

/-- Asks for a member. That there is none is noted and not a fault. -/
def ask (g : Gateway σ) (guild : Value) (user : Nat) : Script σ Unit :=
  (g.fetch guild user).bind fun
    | .error f => if f.severity = .noEntry then note (.memberNotFound user guild) else .done (.error f)
    | .ok member => .done (.ok member)

/-- Looks up a member by the digits of its number in the guild of the message. -/
def resolve (g : Gateway σ) (digits : String) (message : Option Message) : Script σ Unit :=
  let guild := (message.map (·.guild)).getD .none
  if !guild.isTruthy then .done (.ok .none)
  else if digits.length > Fault.digitLimit then .done (.error (.tooManyDigits digits.length))
  else
    let user := Text.digitsValue digits.toList
    (g.known guild user).bind fun
      | .error f => .done (.error f)
      | .ok member => if member.isTruthy then .done (.ok member) else g.ask guild user

end Gateway
end ChatCommands
