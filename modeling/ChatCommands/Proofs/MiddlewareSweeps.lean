import Mathlib
import ChatCommands.Proofs.HostRequests
import ChatCommands.Proofs.OrdinaryEvents
import ChatCommands.Proofs.ThreadPlay

set_option autoImplicit false

/-!
# Sweeps through the middleware

A sweep calls the middleware one after the other, each with the context that the
one before has left. Before the listeners the first that returns false or leaves
the context marked ends the sweep, and the event. One that raises an ordinary
fault is noted and passed over.
-/
namespace ChatCommands
variable {σ α : Type} {env : Surroundings σ}

/-- A callback asks for nothing but its state and notes. -/
def Effect.Plain : Effect σ → Prop
  | .host _ | .note _ => True
  | _ => False

/-- What plays a program that makes plain requests only ends as is usual. -/
theorem Plays.usually_plain {keeps : Prop} {p : Engine σ α} {t : List (Moment σ)} {a : α}
    {Q : α → Prop} (plain : p.Within Effect.Plain) (usually : p.Usually keeps Q)
    (h : Plays env p t (some a)) : Q a := by
  generalize ho : some a = o at h
  induction h with
  | pause | waits | notifies => cases ho
  | done => cases ho; exact usually true
  | @answered m r next x s t o asked answer rest ih =>
    obtain ⟨simple, plain⟩ := plain
    refine ih (plain x) (fun b => (usually b).2 x ?_) ho
    cases answer with
    | host | note | seconds | count => trivial
    | _ => exact simple.elim
  | unfolded _ expands => cases expands <;> exact plain.1.elim
  | resumed | heard => exact plain.1.elim

/-- The host as the middleware that are built in see it. -/
def Host.muted (host : Host σ) : Host σ :=
  { Host.silent with name := host.name, listed := host.listed, extend := host.extend }

theorem Host.muted_ordinary (host : Host σ) : host.muted.Ordinary where
  execute _ _ _ _ := ordinary_ok _
  guard _ _ _ := ordinary_ok _
  reply _ _ _ := ordinary_ok _
  listener _ _ _ _ := ordinary_ok _
  middleware _ _ _ := ordinary_ok _
  parse _ _ _ _ _ := ordinary_ok _
  resolve _ _ _ _ := ordinary_ok _

theorem Host.muted_within (host : Host σ) : host.muted.Within Effect.Plain where
  notes _ := trivial
  looks := trivial
  grows _ _ := trivial
  guard _ _ := trivial
  reply _ _ := trivial
  listener _ _ _ := trivial
  middleware _ _ := trivial
  parse _ _ _ _ := trivial
  resolve _ _ _ := trivial

namespace Event

/-- The sweep asks for the middleware at an index. -/
def Fetches (phase : Phase) (event : String) (index : Nat) (context : EventContext)
    (a b : Moment σ) : Prop :=
  a.deed = .asks (.sweep phase event index context) ∧ b.deed = .asks (.middlewareAt index)

/-- No middleware of the host that was called meanwhile has raised a fatal fault, or has put something
other than a list in the place of the faults of listeners. -/
def Tame (env : Surroundings σ) (t : List (Moment σ)) : Prop :=
  ∀ a b u phase event index h context r context', a :: b :: u <:+: t →
    Fetches phase event index context a b →
    b.before.shared.subscribers.middleware[index]? = some (.hook h) →
    Plays env (Engine.perform (Engine.noReply "NoneType") (env.host.middleware h phase) context) u
      (some (r, context')) → Ordinary r ∧ (Gathers context → Gathers context')

theorem Tame.mono {t u : List (Moment σ)} (h : Tame env t) (part : u <:+: t) : Tame env u :=
  fun a b v phase event index k context r context' inside =>
    h a b v phase event index k context r context' (inside.trans part)

/-- The middleware that are built in are tame. -/
theorem Tame.call {t u : List (Moment σ)} (tame : Tame env t) {a b : Moment σ} {phase : Phase}
    {event : String} {index : Nat} {context context' : EventContext} {m : Middleware}
    {r : Except Fault Value} (part : a :: b :: u <:+: t) (fetches : Fetches phase event index context a b)
    (fetched : b.before.shared.subscribers.middleware[index]? = some m)
    (plays : Plays env (m.call env.host phase context) u (some (r, context'))) :
    Ordinary r ∧ (Gathers context → Gathers context') := by
  have builtIn : (∀ h, m ≠ .hook h) →
      m.call env.host phase context = m.call env.host.muted phase context := by
    intro other
    cases m with
    | hook h => exact absurd rfl (other h)
    | _ => cases phase <;> rfl
  cases m with
  | hook h => exact tame _ _ u phase event index h context r context' part fetches fetched plays
  | _ =>
    rw [builtIn nofun] at plays
    have leaves := plays.usually_plain (Q := Middleware.Leaves (Gathers context))
      (Middleware.within_call env.host.muted_within phase context _)
      (Middleware.usually_call env.host.muted_ordinary (fun _ _ _ _ gathers => gathers) phase id _)
    exact leaves

/-- A sweep through these middleware, which begin at an index, with the context for the first; so far,
or with the context after the last that was called and whether it has stopped the event. -/
inductive Sweeps (env : Surroundings σ) (phase : Phase) (event : String) :
    Nat → List Middleware → EventContext → List (Moment σ) → Option Swept → Prop where
  | pause (index : Nat) (ms : List Middleware) (context : EventContext) :
      Sweeps env phase event index ms context [] none
  | fetching {index : Nat} {ms : List Middleware} {context : EventContext} {a : Moment σ}
      (asks : a.deed = .asks (.sweep phase event index context)) :
      Sweeps env phase event index ms context [a] none
  | over {index : Nat} {context : EventContext} {a b : Moment σ}
      (fetches : Fetches phase event index context a b) :
      Sweeps env phase event index [] context [a, b] (some ⟨context, false⟩)
  | calling {index : Nat} {m : Middleware} {ms : List Middleware} {context : EventContext}
      {a b : Moment σ} {t : List (Moment σ)} (fetches : Fetches phase event index context a b)
      (call : Plays env (m.call env.host phase context) t none) :
      Sweeps env phase event index (m :: ms) context (a :: b :: t) none
  | passed {index : Nat} {m : Middleware} {ms : List Middleware} {context context' : EventContext}
      {a b : Moment σ} {t u : List (Moment σ)} {v : Value} {o : Option Swept}
      (fetches : Fetches phase event index context a b)
      (call : Plays env (m.call env.host phase context) t (some (.ok v, context')))
      (passes : phase = .before → stops v context' = false)
      (rest : Sweeps env phase event (index + 1) ms context' u o) :
      Sweeps env phase event index (m :: ms) context (a :: b :: (t ++ u)) o
  | stopped {index : Nat} {m : Middleware} {ms : List Middleware} {context context' : EventContext}
      {a b e : Moment σ} {t : List (Moment σ)} {v : Value}
      (fetches : Fetches phase event index context a b)
      (call : Plays env (m.call env.host phase context) t (some (.ok v, context')))
      (before : phase = .before) (stops : stops v context' = true)
      (noted : e.deed = .asks (.effect (.note (.eventStopped event)))) :
      Sweeps env phase event index (m :: ms) context (a :: b :: (t ++ [e])) (some ⟨context', true⟩)
  | raised {index : Nat} {m : Middleware} {ms : List Middleware} {context context' : EventContext}
      {a b e : Moment σ} {t u : List (Moment σ)} {f : Fault} {o : Option Swept}
      (fetches : Fetches phase event index context a b)
      (call : Plays env (m.call env.host phase context) t (some (.error f, context')))
      (ordinary : f.isOrdinary = true)
      (noted : e.deed = .asks (.effect (.note
        (.middlewareFailed (env.host.middlewareName m) (phase = .after) f))))
      (rest : Sweeps env phase event (index + 1) ms context' u o) :
      Sweeps env phase event index (m :: ms) context (a :: b :: (t ++ e :: u)) o
  | cut {index : Nat} {ms : List Middleware} {context : EventContext} {t : List (Moment σ)} {x : Swept}
      (whole : Sweeps env phase event index ms context t (some x)) :
      Sweeps env phase event index ms context t none

variable {phase : Phase} {event : String}

/-- What is left of a sweep that is over ends it. -/
theorem Sweeps.done {index : Nat} {ms : List Middleware} {context : EventContext}
    {t u : List (Moment σ)} {x : Swept} {o : Option (Except Fault Swept)}
    (whole : Sweeps env phase event index ms context t (some x)) (gathers : Gathers x.context)
    (plays : Plays env (.done (.ok x)) u o) :
    ∃ o', o = o'.map .ok ∧ Sweeps env phase event index ms context (t ++ u) o' ∧
      ∀ y, o' = some y → Gathers y.context := by
  cases plays with
  | pause => exact ⟨none, rfl, by simpa using whole.cut, nofun⟩
  | done => exact ⟨some x, rfl, by simpa using whole, fun y h => Option.some.inj h ▸ gathers⟩

/-- How a sweep goes on after it has called the middleware at an index. -/
def afterCall (host : Host σ) (phase : Phase) (event : String) (index : Nat) (m : Middleware) :
    Except Fault Value × EventContext → Engine σ (Except Fault Swept)
  | (.ok v, context) =>
    if phase = .before ∧ stops v context then
      (Engine.note (.eventStopped event)).bind fun _ => .done (.ok ⟨context, true⟩)
    else Engine.request (.sweep phase event (index + 1) context)
  | (.error f, context) =>
    if f.isOrdinary then
      (Engine.note (.middlewareFailed (host.middlewareName m) (phase = .after) f)).bind fun _ =>
        Engine.request (.sweep phase event (index + 1) context)
    else .done (.error f)

/-- A sweep fetches the middleware at its index and calls it. -/
theorem fetched_of_plays {index : Nat} {context : EventContext} {t : List (Moment σ)}
    {o : Option (Except Fault Swept)}
    (h : Plays env (Engine.request (.sweep phase event index context)) t o) :
    (o = none ∧ ∀ ms, Sweeps env phase event index ms context t none) ∨
      ∃ a b u, t = a :: b :: u ∧ Fetches phase event index context a b ∧
        match b.before.shared.subscribers.middleware[index]? with
        | none => Plays env (.done (.ok ⟨context, false⟩)) u o
        | some m =>
          Plays env ((m.call env.host phase context).bind (afterCall env.host phase event index m)) u o := by
  cases h with
  | pause => exact .inl ⟨rfl, fun ms => .pause _ _ _⟩
  | answered asked answer => cases answer
  | @unfolded a _ _ p t _ asked expands plays =>
    cases expands
    rw [Program.bind_done] at plays
    cases plays with
    | pause => exact .inl ⟨rfl, fun ms => .fetching asked⟩
    | unfolded asked' expands => cases expands
    | @answered b _ _ x _ t _ asked' answer plays =>
      cases answer
      refine .inr ⟨a, b, t, rfl, ⟨asked, asked'⟩, ?_⟩
      dsimp only [Program.done_bind] at plays
      cases fetched : b.before.shared.subscribers.middleware[index]? with
      | none =>
        simp only [fetched] at plays
        exact plays
      | some m =>
        simp only [fetched] at plays
        refine Eq.mp (congrArg (fun f => Plays env (Program.bind _ f) t o) (funext ?_)) plays
        rintro ⟨v | f, context⟩ <;> rfl

/-- What plays a request of a sweep goes through the middleware from the index on. -/
theorem sweeps_of_plays {s : Subscribers} {ms : List Middleware} {index : Nat}
    {context : EventContext} {t : List (Moment σ)} {o : Option (Except Fault Swept)}
    (left : s.middleware.drop index = ms) (tame : Tame env t)
    (steady : ∀ d ∈ t, d.before.shared.subscribers = s) (gathers : Gathers context)
    (h : Plays env (Engine.request (.sweep phase event index context)) t o) :
    ∃ o', o = o'.map .ok ∧ Sweeps env phase event index ms context t o' ∧
      ∀ x, o' = some x → Gathers x.context := by
  -- along the middleware that are left, not along the deeds: what a middleware does is not of one step
  induction ms generalizing index context t o with
  | nil =>
    rcases fetched_of_plays h with ⟨rfl, sweeps⟩ | ⟨a, b, u, rfl, fetches, plays⟩
    · exact ⟨none, rfl, sweeps _, nofun⟩
    · rw [steady b (by simp), List.getElem?_eq_none (List.drop_eq_nil_iff.1 left)] at plays
      exact (Sweeps.over fetches).done gathers plays
  | cons m ms ih =>
    rcases fetched_of_plays h with ⟨rfl, sweeps⟩ | ⟨a, b, u, rfl, fetches, plays⟩
    · exact ⟨none, rfl, sweeps _, nofun⟩
    have fetched : s.middleware[index]? = some m := by rw [← List.head?_drop, left, List.head?_cons]
    have left' : s.middleware.drop (index + 1) = ms := by
      rw [← List.tail_drop, left, List.tail_cons]
    rw [steady b (by simp), fetched] at plays
    rcases plays.of_bind with ⟨rfl, call⟩ | ⟨u, v, ⟨r, context'⟩, rfl, call, plays⟩
    · exact ⟨none, rfl, .calling fetches call, nofun⟩
    have part : a :: b :: u <:+: a :: b :: (u ++ v) := ⟨[], v, by simp⟩
    have later : v <:+: a :: b :: (u ++ v) := ⟨a :: b :: u, [], by simp⟩
    obtain ⟨ordinary, keeps⟩ := tame.call part fetches (by rw [steady b (by simp), fetched]) call
    replace keeps := keeps gathers
    cases r with
    | ok x =>
      simp only [afterCall] at plays
      split at plays
      case isTrue stop =>
        rcases Plays.of_prompt (by trivial) plays with ⟨rfl, rfl⟩ | ⟨e, _, _, v, rfl, noted, -, plays⟩
        · exact ⟨none, rfl, by simpa using .calling fetches call.cut, nofun⟩
        · simpa using (Sweeps.stopped fetches call stop.1 stop.2 noted).done keeps plays
      case isFalse go =>
        obtain ⟨o', rfl, sweeps, ends⟩ := ih left' (tame.mono later)
          (fun d hd => steady d (by simp [hd])) keeps plays
        exact ⟨o', rfl, .passed fetches call (fun before => by simpa [before] using go) sweeps, ends⟩
    | error f =>
      simp only [afterCall] at plays
      rw [if_pos (ordinary f rfl)] at plays
      rcases Plays.of_prompt (by trivial) plays with ⟨rfl, rfl⟩ | ⟨e, _, _, v, rfl, noted, -, plays⟩
      · exact ⟨none, rfl, by simpa using .calling fetches call.cut, nofun⟩
      · obtain ⟨o', rfl, sweeps, ends⟩ := ih left'
          (tame.mono (List.IsInfix.trans ⟨[e], [], by simp⟩ later))
          (fun d hd => steady d (by simp [hd])) keeps plays
        exact ⟨o', rfl, .raised fetches call (ordinary f rfl) noted sweeps, ends⟩

end Event
end ChatCommands
