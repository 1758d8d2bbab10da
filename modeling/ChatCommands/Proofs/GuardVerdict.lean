import Mathlib
import ChatCommands.Guard.Evaluation
import ChatCommands.Proofs.ProgramTrace

set_option autoImplicit false

/-!
# What a guard decides

A run of a guard casts votes, may do other things in between, and ends with a
value or a fault. The verdict depends on the votes and on the end alone: a fault
denies whatever was voted, then the first vote against, then a refusal that was
returned; without these a vote for or a returned permission grants, and what
decides nothing denies.
-/
namespace ChatCommands
variable {σ : Type}

inductive Vote where
  | approve
  | deny (reason : Value)

namespace Vote

def cast : Vote → Ballot → Ballot
  | .approve => Ballot.approve
  | .deny reason => Ballot.deny reason

def reason? : Vote → Option Value
  | .approve => none
  | .deny reason => some reason

def isApproval : Vote → Bool
  | .approve => true
  | .deny _ => false

end Vote

namespace Guard

/-- The verdict on a guard that has cast these votes, in this order, and then returned or raised. -/
def decision (votes : List Vote) : Except Fault Value → Except Fault Verdict
  | .error f => if f.isOrdinary then .ok (.denied (.fault f)) else .error f
  | .ok v =>
    match votes.findSome? Vote.reason?, v with
    | some reason, _ => .ok (.denied reason)
    | none, .denied reason => .ok (.denied reason)
    | none, .granted => .ok .granted
    | none, _ => .ok (if votes.any Vote.isApproval then .granted else .denied .none)

/-- A run of a guard's script from a ballot on: what it asked for, the votes it cast, what it ended
with and the ballot then. It cannot answer the message. -/
inductive Runs : Script σ Ballot → Ballot → List (Exchange (engineInterface σ)) → List Vote →
    Except Fault Value → Ballot → Prop where
  | done (r : Except Fault Value) (b : Ballot) : Runs (.done r) b [] [] r b
  | effect {e : Effect σ} {next : e.Answer → Script σ Ballot} {x : e.Answer} {b b' : Ballot}
      {t : List (Exchange (engineInterface σ))} {votes : List Vote} {r : Except Fault Value}
      (tail : Runs (next x) b t votes r b') :
      Runs (.ask (.effect e) next) b (⟨.effect e, x⟩ :: t) votes r b'
  | vote {v : Vote} {next : Ballot → Script σ Ballot} {b b' : Ballot}
      {t : List (Exchange (engineInterface σ))} {votes : List Vote} {r : Except Fault Value}
      (tail : Runs (next (v.cast b)) (v.cast b) t votes r b') :
      Runs (.ask (.update v.cast) next) b t (v :: votes) r b'
  | arguments {f : Ballot → Assoc Value} {next : Ballot → Script σ Ballot} {b b' : Ballot}
      {t : List (Exchange (engineInterface σ))} {votes : List Vote} {r : Except Fault Value}
      (tail : Runs (next { b with arguments := f b }) { b with arguments := f b } t votes r b') :
      Runs (.ask (.update fun b => { b with arguments := f b }) next) b t votes r b'
  | reply {text : String} {next : Except Fault Value → Script σ Ballot} {b b' : Ballot}
      {t : List (Exchange (engineInterface σ))} {votes : List Vote} {r : Except Fault Value}
      (tail : Runs (next (.error (.noAttribute "GuardPayload" "reply"))) b t votes r b') :
      Runs (.ask (.reply text) next) b t votes r b'

variable {s : Script σ Ballot} {b b' : Ballot} {t : List (Exchange (engineInterface σ))}
  {votes : List Vote} {r : Except Fault Value}

theorem Runs.traces (run : Runs s b t votes r b') :
    (Engine.perform (Engine.noReply "GuardPayload") s b).Traces t (r, b') := by
  induction run with
  | done r b => exact .done _
  | effect _ ih => exact .ask ih
  | vote _ ih | arguments _ ih | reply _ ih => exact ih

/-- The ballot keeps the first reason and remembers any vote for. -/
theorem Runs.ballot (run : Runs s b t votes r b') :
    b'.denial = b.denial.or (votes.findSome? Vote.reason?) ∧
      b'.approved = (b.approved || votes.any Vote.isApproval) := by
  induction run with
  | done r b => simp
  | @vote v next b b' t votes r tail ih =>
    obtain ⟨denial, approved⟩ := ih
    rw [denial, approved]
    cases v with
    | approve => simp [Vote.cast, Ballot.approve, List.findSome?_cons, Vote.reason?, Vote.isApproval]
    | deny reason =>
      cases earlier : b.denial <;>
        simp [Vote.cast, Ballot.deny, earlier, List.findSome?_cons, Vote.reason?, Vote.isApproval]
  | effect _ ih | arguments _ ih | reply _ ih => exact ih

def noted (n : Notice) : Exchange (engineInterface σ) := ⟨.effect (.note n), ()⟩

def call (host : Host σ) (guard : Callback) (arguments : Assoc Value) (m : Option Message) :
    Engine σ (Except Fault Value × Ballot) :=
  match guard with
  | .value v => .done (.error (.notCallable v.typeName), { arguments })
  | .fixed answer => .done (answer, { arguments })
  | .hook h => Engine.perform (Engine.noReply "GuardPayload") (host.guard h m) { arguments }

variable {host : Host σ} {m : Option Message} {arguments arguments' : Assoc Value}
  {guard : Callback}

end Guard
end ChatCommands
