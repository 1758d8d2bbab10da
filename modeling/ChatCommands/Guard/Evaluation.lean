import ChatCommands.Engine.Basic

set_option autoImplicit false

/-!
# Evaluating a guard

A guard that raises denies, with the fault as the reason, and so does one that
decides nothing. Only a fatal fault passes. The bound arguments come back as the
guard has left them.
-/
namespace ChatCommands.Guard
variable {σ : Type}

/-- The guard's verdict, or a fatal fault. -/
def conclude (command : String) (returned : Except Fault Value) (ballot : Ballot) :
    Engine σ (Except Fault Verdict) :=
  match returned with
  | .error f =>
    if f.isOrdinary then do
      Engine.note (.guardRaised command)
      return .ok (.denied (.fault f))
    else return .error f
  | .ok v =>
    match ballot.decide? v with
    | none => do
      Engine.note (.guardUndecided command)
      return .ok (.denied .none)
    | some .granted => return .ok .granted
    | some (.denied reason) => do
      Engine.note (.guardDenied command reason)
      return .ok (.denied reason)

/-- Calls the guard of a command with its bound arguments. -/
def evaluate (host : Host σ) (command : String) (guard : Callback) (arguments : Assoc Value)
    (message : Option Message) : Engine σ (Except Fault Verdict × Assoc Value) := do
  let (returned, ballot) ← match guard with
    | .value v => pure (Except.error (.notCallable v.typeName), { arguments })
    | .fixed answer => pure (answer, { arguments })
    | .hook h => Engine.perform (Engine.noReply "GuardPayload") (host.guard h message) { arguments }
  let verdict ← conclude command returned ballot
  return (verdict, ballot.arguments)

end ChatCommands.Guard
