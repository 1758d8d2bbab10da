import Mathlib
import ChatCommands.Proofs.ListenerFailures

set_option autoImplicit false

/-!
# What the built-in middleware accept

The built-in middleware are called for every event, whatever it is emitted with.
They find in the context what they or the emission have put there, unless other
middleware change it. So only one thing can go wrong: after the listeners the
outcome log describes the first argument of the event, and it can describe only an
outcome or nothing at all. What else comes first makes it raise an ordinary fault.
-/
namespace ChatCommands
variable {σ α : Type} {env : Surroundings σ} {host : Host σ}

/-- What built-in middleware ask for: they look at the host's state and at the time, count, and note
something other than that a middleware has failed. -/
def EngineRequest.Watches : EngineRequest σ → Prop
  | .effect (.host _) | .seconds | .count .. => True
  | .effect (.note (.middlewareFailed ..)) => False
  | .effect (.note _) => True
  | _ => False

/-- Programs that only watch, whatever they see. -/
def watching (σ : Type) : Discipline (engineInterface σ) Unit where
  allows _ r := r.Watches
  expects _ _ _ := True
  next _ _ _ := ()

/-- The program only watches, and ends as `Q` says. -/
abbrev Engine.Watching (p : Engine σ α) (Q : α → Prop) : Prop :=
  p.Follows (watching σ) (fun _ a => Q a) ()

/-- What plays a program that only watches makes its requests and ends as it does. -/
theorem Plays.of_watching {p : Engine σ α} {Q : α → Prop} {t : List (Moment σ)} {o : Option α}
    (watches : p.Watching Q) (h : Plays env p t o) :
    (∀ d ∈ t, ∃ r, d.deed = .asks r ∧ r.Watches) ∧ ∀ a, o = some a → Q a := by
  induction h with
  | pause => exact ⟨by simp, nofun⟩
  | done => exact ⟨by simp, fun a same => Option.some.inj same ▸ watches⟩
  | answered asked answer _ ih =>
    obtain ⟨rest, ends⟩ := ih (watches.2 _ trivial)
    exact ⟨List.forall_mem_cons.2 ⟨⟨_, asked, watches.1⟩, rest⟩, ends⟩
  | unfolded _ expands => cases expands <;> exact watches.1.elim
  | waits | resumed | notifies | heard => exact watches.1.elim

namespace Middleware

/-- One of those that are built in. -/
def BuiltIn : Middleware → Prop
  | .hook _ => False
  | _ => True

/-- What a built-in middleware ends with if this is the first argument of the event. -/
def verdict (phase : Phase) (subject : Value) : Middleware → Except Fault Value
  | .outcomeLog _ => match phase with
    | .before => .ok .none
    | .after => (describe? subject).map fun _ => .none
  | _ => .ok .none

/-- An outcome, or nothing at all. -/
def Describable (v : Value) : Prop := v = .none ∨ ∃ o, v = .outcome o

theorem describe?_of_describable {v : Value} (h : Describable v) : ∃ text, describe? v = .ok text := by
  obtain rfl | ⟨o, rfl⟩ := h
  · exact ⟨_, rfl⟩
  · exact ⟨_, rfl⟩

theorem describe?_of_not_describable {v : Value} (h : ¬ Describable v) :
    describe? v = .error (.noAttribute v.typeName "success") := by
  cases v with
  | none => exact absurd (.inl rfl) h
  | outcome o => exact absurd (.inr ⟨o, rfl⟩) h
  | _ => rfl

theorem verdict_eq_ok {phase : Phase} {subject : Value} (h : phase = .after → Describable subject)
    (m : Middleware) : m.verdict phase subject = .ok .none := by
  cases m with
  | outcomeLog number =>
    cases phase with
    | before => rfl
    | after =>
      obtain ⟨text, described⟩ := describe?_of_describable (h rfl)
      simp [verdict, described, Except.map]
  | _ => rfl

theorem verdict_ordinary (phase : Phase) (subject : Value) (m : Middleware) :
    Ordinary (m.verdict phase subject) := by
  cases m with
  | outcomeLog number =>
    cases phase with
    | before => exact ordinary_ok _
    | after => exact (ordinary_describe? subject).map _
  | _ => exact ordinary_ok _

end Middleware

namespace Event
variable {arguments : List Value} {context context' : EventContext}

/-- The first argument, if there is one. -/
def subject (arguments : List Value) : Value := arguments.headD .none

/-- The context has what the built-in middleware look for in it. -/
structure Legible (arguments : List Value) (context : EventContext) : Prop where
  arguments : context.find? "args" = some (.list arguments)
  gathers : Gathers context
  started : ∀ v, context.find? "started_at" = some v → ∃ x, v = .float x

theorem legible_context (event : String) (arguments : List Value) (options : Assoc Value) :
    Legible arguments (Event.context event arguments options) where
  arguments := by simp [Event.context, Assoc.find?]
  gathers := gathers_context event arguments options
  started v h := by simp [Event.context, Assoc.find?] at h

/-- Nothing else was changed than when the listeners were begun to be called, and that can be read. -/
structure Undisturbed (before after : EventContext) : Prop where
  started : ∀ v, after.find? "started_at" = some v → ∃ x, v = .float x
  others : ∀ key ≠ "started_at", after.find? key = before.find? key

theorem Undisturbed.legible (h : Undisturbed context context') (legible : Legible arguments context) :
    Legible arguments context' where
  arguments := (h.others _ (by decide)).trans legible.arguments
  gathers v hv := legible.gathers v ((h.others _ (by decide)).symm.trans hv)
  started := h.started

theorem Undisturbed.isStopped (h : Undisturbed context context') :
    isStopped context' = isStopped context := by
  rw [Event.isStopped, h.others _ (by decide), Event.isStopped]

theorem undisturbed_put_started (context : EventContext) (now : Binary64) :
    Undisturbed context (context.put "started_at" (.float now)) where
  started v hv := by
    rw [Assoc.find?_put_self] at hv
    exact ⟨now, (Option.some.inj hv).symm⟩
  others _ other := Assoc.find?_put_of_ne _ other _

theorem Legible.undisturbed (h : Legible arguments context) : Undisturbed context context :=
  ⟨h.started, fun _ _ => rfl⟩

theorem Legible.subject? (h : Legible arguments context) :
    Middleware.subject? context = .ok (subject arguments) := by
  rw [Middleware.subject?, h.arguments]
  cases arguments <;> rfl

theorem Legible.elements? (h : Legible arguments context) (host : Host σ) (s : σ) :
    ∃ faults, host.elements? s ((context.find? "errors").getD (.list [])) = .ok faults := by
  cases hv : context.find? "errors" with
  | none => exact ⟨_, rfl⟩
  | some v =>
    obtain ⟨items, rfl⟩ | ⟨n, rfl⟩ := h.gathers v hv
    · exact ⟨_, rfl⟩
    · exact ⟨_, rfl⟩

theorem Legible.tookText? (h : Legible arguments context) (now : Binary64) :
    ∃ text, Middleware.tookText? now ((context.find? "started_at").getD .none) = .ok text := by
  cases hv : context.find? "started_at" with
  | none => exact ⟨_, rfl⟩
  | some v =>
    obtain ⟨x, rfl⟩ := h.started v hv
    unfold Middleware.tookText?
    split
    · exact ⟨_, rfl⟩
    · exact ⟨_, rfl⟩

end Event

namespace Middleware
open Event
variable {arguments : List Value} {context : EventContext}

/-- A call of a built-in middleware has ended as its verdict is, and has left the context in order. -/
def Judges (arguments : List Value) (phase : Phase) (m : Middleware) (context : EventContext)
    (r : Except Fault Value × EventContext) : Prop :=
  r.1 = m.verdict phase (subject arguments) ∧ Undisturbed context r.2

theorem watching_noteFaults (event : Value) (vs : List Value) :
    (noteFaults event vs : Engine σ Unit).Watching fun _ => True := by
  induction vs with
  | nil => trivial
  | cons v vs ih => exact ⟨trivial, fun _ _ => ih⟩

theorem watching_logBefore (context : EventContext) :
    (logBefore context : Engine σ _).Watching fun r => r.1 = .ok .none ∧ Undisturbed context r.2 :=
  ⟨trivial, fun now _ => ⟨trivial, fun _ _ => ⟨rfl, undisturbed_put_started context now⟩⟩⟩

theorem watching_logAfter (h : Legible arguments context) :
    (logAfter context : Engine σ _).Watching fun r =>
      r.1 = ((describe? (subject arguments)).map fun _ => .none) ∧ Undisturbed context r.2 := by
  unfold logAfter
  simp only [h.subject?]
  cases describe? (subject arguments) with
  | error f => exact ⟨rfl, h.undisturbed⟩
  | ok outcome =>
    refine ⟨trivial, fun now _ => ?_⟩
    obtain ⟨took, read⟩ := h.tookText? now
    simp only [Program.done_bind, read]
    have erased : Undisturbed context (context.erase "started_at") := by
      refine ⟨fun v hv => ?_, fun key other => Assoc.find?_erase_of_ne _ other⟩
      rw [Assoc.find?_erase_self] at hv
      cases hv
    refine ⟨?_, fun _ _ => ⟨rfl, erased⟩⟩
    split
    · trivial
    · split <;> trivial

theorem watching_faultsAfter (h : Legible arguments context) :
    (faultsAfter host context).Watching fun r => r = .ok .none := by
  unfold faultsAfter
  split
  case h_1 f refused => cases h.subject?.symm.trans refused
  case h_2 =>
    extract_lets rest
    have watching_rest : (rest ()).Watching fun r => r = .ok .none := by
      refine ⟨trivial, fun s _ => ?_⟩
      obtain ⟨faults, read⟩ := h.elements? host s
      simp only [Program.done_bind, read]
      exact (watching_noteFaults _ faults).bind fun _ _ _ => rfl
    split
    · exact ⟨trivial, fun _ _ => ⟨trivial, fun _ _ => watching_rest⟩⟩
    · exact watching_rest

theorem watching_countBefore (number : Nat) (h : Legible arguments context) :
    (countBefore number context : Engine σ _).Watching fun r => r = .ok .none := by
  unfold countBefore
  simp only [h.subject?]
  split
  · next none => cases none
  · split
    · rfl
    · exact ⟨trivial, fun _ _ => ⟨trivial, fun _ _ => rfl⟩⟩
  · rfl

theorem watching_call (host : Host σ) (phase : Phase) (h : Legible arguments context) {m : Middleware}
    (builtIn : m.BuiltIn) :
    (m.call host phase context).Watching (m.Judges arguments phase context) := by
  have returned {p : Engine σ (Except Fault Value)} (watches : p.Watching fun r => r = .ok .none) :
      Engine.Watching (p.bind fun r => .done (r, context)) fun r =>
        r.1 = .ok .none ∧ Undisturbed context r.2 := by
    refine Program.Follows.bind watches fun _ r hr => ?_
    exact ⟨hr, h.undisturbed⟩
  cases m with
  | hook _ => exact builtIn.elim
  | outcomeLog number =>
    cases phase with
    | before => exact watching_logBefore context
    | after => exact watching_logAfter h
  | faultLog number =>
    cases phase with
    | before => exact ⟨rfl, h.undisturbed⟩
    | after => exact returned (watching_faultsAfter h)
  | tally number =>
    cases phase with
    | before => exact returned (watching_countBefore number h)
    | after => exact ⟨rfl, h.undisturbed⟩

end Middleware

/-- The deed does not note that a middleware has failed. -/
def Deed.Quiet (d : Deed σ) : Prop :=
  ∀ middleware after f, d ≠ .asks (.effect (.note (.middlewareFailed middleware after f)))

theorem EngineRequest.Watches.quiet {r : EngineRequest σ} (h : r.Watches) : (Deed.asks r).Quiet := by
  rintro middleware after f ⟨⟩
  exact h

namespace Event
open Middleware
variable {phase : Phase} {event : String} {index : Nat} {arguments : List Value} {options : Assoc Value}
  {context : EventContext} {t : List (Moment σ)} {vs : List Visit} {x : Except Fault Swept}
  {ms : List Middleware} {listeners : List Hook}

/-- Other middleware leave in order what the built-in ones look for. -/
def Considerate (arguments : List Value) (vs : List Visit) : Prop :=
  ∀ v ∈ vs, ¬ v.middleware.BuiltIn → Legible arguments v.given → Legible arguments v.left

/-- The built-in middleware have ended as their verdicts are. -/
def Judged (arguments : List Value) (phase : Phase) (vs : List Visit) : Prop :=
  ∀ v ∈ vs, v.middleware.BuiltIn → v.result = v.middleware.verdict phase (subject arguments)

theorem Visits.Calls.judges {a b : Moment σ} {v : Visit} (calls : Visits.Calls env phase event index a b t v)
    (legible : Legible arguments v.given) (builtIn : v.middleware.BuiltIn) :
    v.middleware.Judges arguments phase v.given (v.result, v.left) :=
  (calls.plays.of_watching (watching_call env.host phase legible builtIn)).2 _ rfl

theorem Visits.Calls.judged {a b : Moment σ} {v : Visit} (calls : Visits.Calls env phase event index a b t v)
    (legible : Legible arguments v.given) (considerate : Considerate arguments (v :: vs)) :
    (v.middleware.BuiltIn → v.result = v.middleware.verdict phase (subject arguments)) ∧
      Legible arguments v.left := by
  by_cases builtIn : v.middleware.BuiltIn
  · obtain ⟨result, undisturbed⟩ := calls.judges legible builtIn
    exact ⟨fun _ => result, undisturbed.legible legible⟩
  · exact ⟨fun h => absurd h builtIn, considerate v List.mem_cons_self builtIn legible⟩

theorem Considerate.tail {v : Visit} (h : Considerate arguments (v :: vs)) : Considerate arguments vs :=
  fun w hw => h w (List.mem_cons_of_mem _ hw)

/-- Among considerate middleware those that are built in end as their verdicts are. -/
theorem Visits.judged (h : Visits env phase event index context t vs x) (legible : Legible arguments context)
    (considerate : Considerate arguments vs) :
    Judged arguments phase vs ∧ ∀ y, x = .ok y → Legible arguments y.context := by
  induction h with
  | ended => exact ⟨by simp [Judged], fun y same => Except.ok.inj same ▸ legible⟩
  | passed calls _ _ _ ih | raised calls _ _ _ _ ih =>
    obtain ⟨here, left⟩ := calls.judged legible considerate
    obtain ⟨later, ends⟩ := ih left considerate.tail
    exact ⟨List.forall_mem_cons.2 ⟨here, later⟩, ends⟩
  | stopped calls =>
    obtain ⟨here, left⟩ := calls.judged legible considerate
    exact ⟨List.forall_mem_singleton.2 here, fun y same => Except.ok.inj same ▸ left⟩
  | broken calls =>
    obtain ⟨here, -⟩ := calls.judged legible considerate
    exact ⟨List.forall_mem_singleton.2 here, nofun⟩

/-- The middleware are all called in turn, and the event goes on. -/
def Complete (ms : List Middleware) (vs : List Visit) (x : Except Fault Swept) : Prop :=
  vs.map (·.middleware) = ms ∧ ∃ c, x = .ok ⟨c, false⟩

theorem Visits.Calls.drop_eq_cons {a b : Moment σ} {v : Visit}
    (calls : Visits.Calls env phase event index a b t v)
    (steady : b.before.shared.subscribers.middleware = ms) :
    v.middleware ∈ ms ∧ ms.drop index = v.middleware :: ms.drop (index + 1) := by
  have fetched := calls.fetched
  rw [steady] at fetched
  obtain ⟨inside, found⟩ := List.getElem?_eq_some_iff.1 fetched
  exact ⟨List.mem_of_getElem? fetched, by rw [List.drop_eq_getElem_cons inside, found]⟩

/-- If only built-in middleware are there, all of them are called. -/
theorem Visits.complete (h : Visits env phase event index context t vs x)
    (steady : ∀ d ∈ t, d.before.shared.subscribers.middleware = ms) (builtIn : ∀ m ∈ ms, m.BuiltIn)
    (legible : Legible arguments context) (unmarked : isStopped context = false) :
    Complete (ms.drop index) vs x ∧ ∀ y, x = .ok y → isStopped y.context = false := by
  induction h with
  | ended fetches none =>
    rw [steady _ (by simp), List.getElem?_eq_none_iff] at none
    exact ⟨⟨(List.drop_of_length_le none).symm, _, rfl⟩, fun y same => Except.ok.inj same ▸ unmarked⟩
  | passed calls _ _ _ ih | raised calls _ _ _ _ ih =>
    obtain ⟨mem, drop⟩ := calls.drop_eq_cons (steady _ (by simp))
    obtain ⟨-, undisturbed⟩ := calls.judges legible (builtIn _ mem)
    obtain ⟨⟨called, goesOn⟩, ends⟩ := ih (fun d hd => steady d (by simp [hd]))
      (undisturbed.legible legible) (undisturbed.isStopped.trans unmarked)
    exact ⟨⟨by rw [List.map_cons, called, drop], goesOn⟩, ends⟩
  | stopped calls returned before stops =>
    obtain ⟨mem, -⟩ := calls.drop_eq_cons (steady _ (by simp))
    obtain ⟨result, undisturbed⟩ := calls.judges legible (builtIn _ mem)
    rw [returned, verdict_eq_ok (by simp [before])] at result
    cases result
    have stops : isStopped _ = true := stops
    rw [undisturbed.isStopped, unmarked] at stops
    cases stops
  | broken calls raised fatal =>
    obtain ⟨mem, -⟩ := calls.drop_eq_cons (steady _ (by simp))
    obtain ⟨result, -⟩ := calls.judges legible (builtIn _ mem)
    rw [raised] at result
    have ordinary := verdict_ordinary _ _ _ _ result.symm
    simp [fatal] at ordinary

theorem Fetches.quiet {a b : Moment σ} (h : Fetches phase event index context a b) :
    a.deed.Quiet ∧ b.deed.Quiet := by
  rw [h.1, h.2]
  exact ⟨nofun, nofun⟩

theorem Sweeps.quiet {o : Option Swept} (h : Sweeps env phase event index [] context t o) :
    ∀ d ∈ t, d.deed.Quiet := by
  generalize none : ([] : List Middleware) = ms at h
  induction h with
  | pause => simp
  | fetching asks => exact List.forall_mem_singleton.2 (asks ▸ nofun)
  | «over» fetches => simpa using fetches.quiet
  | cut _ ih => exact ih none
  | _ => cases none

theorem quiet_of_watching {α : Type} {p : Engine σ α} {Q : α → Prop} {o : Option α} (watches : p.Watching Q)
    (h : Plays env p t o) : ∀ d ∈ t, d.deed.Quiet := by
  intro d hd
  obtain ⟨r, asked, only⟩ := (h.of_watching watches).1 d hd
  exact asked ▸ only.quiet

theorem ended_of_plays {y : Swept} {o : Option (Except Fault Swept)} (legible : Legible arguments y.context)
    (h : Plays env (.done (.ok y)) t o) :
    (∀ d ∈ t, d.deed.Quiet) ∧ ∀ z, o = some (.ok z) → Legible arguments z.context := by
  cases h with
  | pause => exact ⟨by simp, nofun⟩
  | done => exact ⟨by simp, fun z same => Except.ok.inj (Option.some.inj same) ▸ legible⟩

/-- If only built-in middleware are there and none raises, none is noted to have failed. -/
theorem quiet_sweep {o : Option (Except Fault Swept)}
    (builtIn : ∀ d ∈ t, ∀ m ∈ d.before.shared.subscribers.middleware, m.BuiltIn)
    (legible : Legible arguments context) (describable : phase = .after → Describable (subject arguments))
    (h : Plays env (Engine.request (.sweep phase event index context)) t o) :
    (∀ d ∈ t, d.deed.Quiet) ∧ ∀ y, o = some (.ok y) → Legible arguments y.context := by
  -- on the number of deeds, since the sweep may break off at any of them
  obtain ⟨n, hn⟩ : ∃ n, t.length ≤ n := ⟨_, le_rfl⟩
  induction n generalizing index context t with
  | zero =>
    obtain rfl := List.eq_nil_of_length_eq_zero (Nat.le_zero.1 hn)
    obtain ⟨rfl, -⟩ | ⟨-, -, -, ⟨⟩, -⟩ := fetched_of_plays h
    exact ⟨by simp, by simp⟩
  | succ n ih =>
    rcases fetched_of_plays h with ⟨rfl, sweeps⟩ | ⟨a, b, u, rfl, fetches, plays⟩
    · exact ⟨(sweeps []).quiet, by simp⟩
    simp only [List.forall_mem_cons, fetches.quiet, true_and]
    cases fetched : b.before.shared.subscribers.middleware[index]? with
    | none =>
      simp only [fetched] at plays
      exact ended_of_plays legible plays
    | some m =>
      simp only [fetched] at plays
      have mine : m.BuiltIn := builtIn b (by simp) m (List.mem_of_getElem? fetched)
      have watching := watching_call env.host phase legible mine
      rcases plays.of_bind with ⟨rfl, call⟩ | ⟨u, v, ⟨r, left⟩, rfl, call, plays⟩
      · exact ⟨quiet_of_watching watching call, by simp⟩
      obtain ⟨result, undisturbed⟩ := (call.of_watching watching).2 _ rfl
      obtain rfl : r = .ok .none := result.trans (verdict_eq_ok describable m)
      have legible := undisturbed.legible legible
      simp only [List.length_cons, List.length_append] at hn
      rw [List.forall_mem_append, and_assoc]
      refine ⟨quiet_of_watching watching call, ?_⟩
      simp only [afterCall] at plays
      split at plays
      · rcases Plays.of_prompt (by trivial) plays with ⟨rfl, rfl⟩ | ⟨e, _, _, v, rfl, noted, -, plays⟩
        · exact ⟨by simp, by simp⟩
        · rw [List.forall_mem_cons, and_assoc]
          exact ⟨by simp [Deed.Quiet, noted], ended_of_plays legible plays⟩
      · exact ih (fun d hd => builtIn d (by simp [hd])) legible plays (by omega)

theorem Gathered.legible {faults : List (Hook × Fault)} {c : EventContext}
    (gathered : Gathered env event context faults t c) (legible : Legible arguments context) :
    Legible arguments c where
  arguments := (gathered.others _ (by decide)).trans legible.arguments
  gathers v hv := by
    rw [gathered.errors] at hv
    unfold withFaults at hv
    split at hv
    case h_1 => exact .inl ⟨_, (Option.some.inj hv).symm⟩
    case h_2 found => exact Option.some.inj hv ▸ legible.gathers _ found
    case h_3 =>
      split at hv
      · cases hv
      · exact .inl ⟨_, (Option.some.inj hv).symm⟩
  started v hv := legible.started v ((gathered.others _ (by decide)).symm.trans hv)

theorem Gathered.isStopped {faults : List (Hook × Fault)} {c : EventContext}
    (gathered : Gathered env event context faults t c) : isStopped c = isStopped context := by
  rw [Event.isStopped, gathered.others _ (by decide), Event.isStopped]

theorem quiet_gathering (host : Host σ) (errors : Option Value) (e : Hook × Fault) :
    ∀ d ∈ gathering host event errors e, d.Quiet := by
  unfold gathering
  cases ownList? errors with
  | none => exact List.forall_mem_singleton.2 nofun
  | some n => exact List.forall_mem_cons.2 ⟨nofun, List.forall_mem_singleton.2 nofun⟩

theorem quiet_reports {faults : List (Hook × Fault)} {o : Option (Except Fault Unit)}
    (builtIn : ∀ d ∈ t, ∀ m ∈ d.before.shared.subscribers.middleware, m.BuiltIn)
    (legible : Legible arguments context) (describable : Describable (subject arguments))
    (h : Reports env event context faults t o) : ∀ d ∈ t, d.deed.Quiet := by
  have quiet {d : Deed σ} (hd : d ∈ faults.flatMap (gathering env.host event (context.find? "errors"))) :
      d.Quiet := by
    obtain ⟨e, -, hd⟩ := List.mem_flatMap.1 hd
    exact quiet_gathering env.host _ e d hd
  cases h with
  | reporting part => exact fun d hd => quiet (part.subset (List.mem_map_of_mem hd))
  | reported gathered sweep =>
    refine List.forall_mem_append.2 ⟨fun d hd => quiet (gathered.deeds ▸ List.mem_map_of_mem hd), ?_⟩
    exact (quiet_sweep (fun d hd => builtIn d (List.mem_append_right _ hd)) (gathered.legible legible)
      (fun _ => describable) sweep).1

theorem quiet_deliver {o : Option (Except Fault Unit)}
    (builtIn : ∀ d ∈ t, ∀ m ∈ d.before.shared.subscribers.middleware, m.BuiltIn)
    (legible : Legible arguments context) (describable : Describable (subject arguments))
    (h : Plays env (deliver env.host event listeners arguments options context) t o) :
    ∀ d ∈ t, d.deed.Quiet := by
  unfold deliver notify at h
  split at h
  · cases h <;> simp
  rcases Plays.of_notify h with ⟨rfl, -⟩ | ⟨n, asks, ⟨rfl, -⟩ | ⟨n', xs, u, rfl, hears, plays⟩⟩
  · simp
  · exact List.forall_mem_singleton.2 (asks ▸ nofun)
  · refine List.forall_mem_cons.2 ⟨asks ▸ nofun, List.forall_mem_cons.2 ⟨hears ▸ nofun, ?_⟩⟩
    cases xs with
    | error f => cases plays <;> simp
    | ok results =>
      exact quiet_reports (fun d hd => builtIn d (by simp [hd])) legible describable
        (reports_of_plays legible.gathers plays)

/-- If only built-in middleware are there and they can describe the event, it is emitted without a note that
any has failed. -/
theorem quiet_emit {o : Option (Except Fault Unit)}
    (builtIn : ∀ d ∈ t, ∀ m ∈ d.before.shared.subscribers.middleware, m.BuiltIn)
    (describable : Describable (subject arguments))
    (h : Plays env (emit env.host event arguments options) t o) : ∀ d ∈ t, d.deed.Quiet := by
  unfold emit at h
  split at h
  · cases h <;> simp
  rw [emitFreely_eq] at h
  rcases Plays.of_prompt (by trivial) h with ⟨rfl, -⟩ | ⟨a, listeners, _, t, rfl, looks, -, plays⟩
  · simp
  have builtIn := fun d hd => builtIn d (List.mem_cons_of_mem a hd)
  have legible := legible_context event arguments options
  refine List.forall_mem_cons.2 ⟨looks ▸ nofun, ?_⟩
  rcases plays.of_bind with ⟨-, first⟩ | ⟨u, v, x, rfl, first, plays⟩
  · exact (quiet_sweep builtIn legible (by simp) first).1
  obtain ⟨quiet, left⟩ :=
    quiet_sweep (fun d hd => builtIn d (List.mem_append_left _ hd)) legible (by simp) first
  refine List.forall_mem_append.2 ⟨quiet, ?_⟩
  rcases x with f | ⟨c, _ | _⟩
  · cases plays <;> simp
  · exact quiet_deliver (fun d hd => builtIn d (List.mem_append_right _ hd)) (left _ rfl) describable plays
  · cases plays <;> simp

/-- What becomes of an event that has passed the middleware: it is not yet over, or it was refused for the
name of an option, or its listeners were called, their faults gathered and the middleware called again. -/
inductive Revisited (env : Surroundings σ) (event : String) (arguments : List Value)
    (options : Assoc Value) (listeners : List Hook) (context : EventContext)
    (law : List Visit → Except Fault Swept → Prop) :
    List (Moment σ) → Option (Except Fault Unit) → Prop where
  | underWay (t : List (Moment σ)) : Revisited env event arguments options listeners context law t none
  | refused (any : listeners ≠ []) (taken : listenerName ∈ options.keys) :
      Revisited env event arguments options listeners context law []
        (some (.error (.givenTwice "call_maybe_async" listenerName)))
  | revisited {n h : Moment σ} {results : List (Except Fault Value)} {t u : List (Moment σ)}
      {c : EventContext} {vs : List Visit} {x : Except Fault Swept}
      (asked : n.deed = .asks (.notify listeners arguments options))
      (told : h.deed = .hears (.ok results))
      (gathered : Gathered env event context (faultsOf (listeners.zip results)) t c)
      (visits : Visits env .after event 0 c u vs x) (holds : law vs x) :
      Revisited env event arguments options listeners context law (n :: h :: (t ++ u))
        (some (x.map fun _ => ()))

theorem Delivery.revisited {log later : List (Moment σ)} {o : Option (Except Fault Unit)}
    {law : List Visit → Except Fault Swept → Prop} (gathers : Gathers context)
    (delivery : Delivery env log event arguments options listeners context later o)
    (holds : ∀ {c faults t u vs x}, u ⊆ later → Gathered env event context faults t c →
      Visits env .after event 0 c u vs x → law vs x) :
    Revisited env event arguments options listeners context law later o := by
  cases delivery with
  | refused any taken result =>
    cases o with
    | none => exact .underWay _
    | some r =>
      obtain rfl := result r rfl
      exact .refused any taken
  | begun | calling => exact .underWay _
  | @told n h _ _ _ asked told reports =>
    cases reports gathers with
    | reporting => exact .underWay _
    | @reported t u c o gathered sweep =>
      cases o with
      | none => exact .underWay _
      | some x =>
        obtain ⟨vs, visits⟩ := visits_of_plays sweep
        have within : u ⊆ n :: h :: (t ++ u) := fun d hd => by simp [hd]
        exact .revisited asked told.told gathered visits (holds within gathered visits)

/-- The built-in middleware have ended as their verdicts are, before the listeners and after them, if the
others leave in order what they look for. -/
def Accepts (env : Surroundings σ) (event : String) (arguments : List Value) (options : Assoc Value)
    (listeners : List Hook) (vs : List Visit) (x : Except Fault Swept) (later : List (Moment σ))
    (o : Option (Except Fault Unit)) : Prop :=
  Considerate arguments vs → Judged arguments .before vs ∧ ∀ context, x = .ok ⟨context, false⟩ →
    Revisited env event arguments options listeners context
      (fun vs' _ => Considerate arguments vs' → Judged arguments .after vs') later o

/-- All these middleware have been called, both before the listeners and after them. -/
def CompletesBoth (env : Surroundings σ) (event : String) (arguments : List Value) (options : Assoc Value)
    (ms : List Middleware) (listeners : List Hook) (vs : List Visit) (x : Except Fault Swept)
    (later : List (Moment σ)) (o : Option (Except Fault Unit)) : Prop :=
  vs.map (·.middleware) = ms ∧ ∃ context, x = .ok ⟨context, false⟩ ∧
    Revisited env event arguments options listeners context (fun vs' x' => Complete ms vs' x') later o

/-- The event went to the listeners, unless a middleware has stopped it. -/
def Delivered (env : Surroundings σ) (log : List (Moment σ)) (event : String) (arguments : List Value)
    (options : Assoc Value) (listeners : List Hook) (_ : List Visit) (x : Except Fault Swept)
    (later : List (Moment σ)) (o : Option (Except Fault Unit)) : Prop :=
  ∀ context, x = .ok ⟨context, false⟩ →
    Delivery env log event arguments options listeners context later o

variable {log pre later : List (Moment σ)} {o : Option (Except Fault Unit)}

theorem Prepared.accepts (prepared : Prepared env event arguments options pre listeners vs x)
    (delivered : Delivered env log event arguments options listeners vs x later o) :
    Accepts env event arguments options listeners vs x later o := by
  intro considerate
  obtain ⟨a, u, -, -, -, visits⟩ := prepared.deeds
  obtain ⟨judged, left⟩ := visits.judged (legible_context event arguments options) considerate
  refine ⟨judged, fun context goesOn => ?_⟩
  have legible : Legible arguments context := left _ goesOn
  refine (delivered context goesOn).revisited legible.gathers fun _ gathered visits considerate => ?_
  exact (visits.judged (gathered.legible legible) considerate).1

theorem Prepared.completesBoth (prepared : Prepared env event arguments options pre listeners vs x)
    (delivered : Delivered env log event arguments options listeners vs x later o)
    (steady : ∀ d ∈ pre ++ later, d.before.shared.subscribers.middleware = ms)
    (builtIn : ∀ m ∈ ms, m.BuiltIn) :
    CompletesBoth env event arguments options ms listeners vs x later o := by
  obtain ⟨a, u, rfl, -, -, visits⟩ := prepared.deeds
  have steadyU : ∀ d ∈ u, d.before.shared.subscribers.middleware = ms :=
    fun d hd => steady d (by simp [hd])
  have legible := legible_context event arguments options
  obtain ⟨⟨called, context, goesOn⟩, unmarked⟩ := visits.complete steadyU builtIn legible rfl
  rw [List.drop_zero] at called
  have considerate : Considerate arguments vs := fun v hv hook =>
    absurd (builtIn _ (called ▸ List.mem_map_of_mem hv)) hook
  have legible : Legible arguments context := (visits.judged legible considerate).2 _ goesOn
  refine ⟨called, context, goesOn, (delivered context goesOn).revisited legible.gathers ?_⟩
  intro c _ _ u' _ _ part gathered visits
  have steadyU' : ∀ d ∈ u', d.before.shared.subscribers.middleware = ms :=
    fun d hd => steady d (List.mem_append_right _ (part hd))
  have unmarked : isStopped context = false := unmarked _ goesOn
  exact (visits.complete steadyU' builtIn (gathered.legible legible)
    (gathered.isStopped.trans unmarked)).1

end Event

namespace World
variable {first w : World σ} {log : List (Moment σ)}

/-- What the built-in middleware make of an event, and what becomes of it if they are the only ones. -/
theorem Records.built_in_accept (threads : first.threads = []) (turns : first.turns = [])
    (run : Records env Act.Patient [] first log w) {i : Nat} {m : Moment σ}
    {before after : List (Moment σ)} (split : own i log = before ++ m :: after) {event : String}
    {arguments : List Value} {options : Assoc Value}
    (emits : m.deed = .asks (.effect (.emit event arguments options)))
    (outlet : env.dispatcher.events.check "emit" = .ok ()) :
    (∃ t rest o, after = t ++ rest ∧ (o = none → rest = [] ∧ ∀ r, w.state? i ≠ some (.finished r)) ∧
      Event.Course env event arguments options (Event.Accepts env event arguments options) t o ∧
      ∀ ms : List Middleware, (∀ d ∈ t, d.before.shared.subscribers.middleware = ms) →
        (∀ m ∈ ms, m.BuiltIn) →
          Event.Course env event arguments options (Event.CompletesBoth env event arguments options ms) t o ∧
          (Middleware.Describable (Event.subject arguments) → ∀ d ∈ t, d.deed.Quiet)) ∧
    (∀ phase (m : Middleware), (phase = .after → Middleware.Describable (Event.subject arguments)) →
      m.verdict phase (Event.subject arguments) = .ok .none) ∧
    (¬ Middleware.Describable (Event.subject arguments) → ∀ n,
      (Middleware.outcomeLog n).verdict .after (Event.subject arguments) =
        .error (.noAttribute (Event.subject arguments).typeName "success")) := by
  refine ⟨?_, fun phase m h => Middleware.verdict_eq_ok h m, fun h n => ?_⟩
  · obtain ⟨t, rest, o, rfl, unfinished, plays⟩ :=
      run.emission_plays threads (fun _ ha => ha) split emits outlet
    have course : Event.Course env event arguments options
        (Event.Delivered env log event arguments options) t o := by
      refine (Event.course_of_plays plays).imp ?_
      rintro pre listeners vs x later o rfl - goesOn context rfl
      refine Event.delivery_of_plays (fun n h u xs part asks hears => ?_) goesOn
      have mine : own i log = (before ++ m :: pre) ++ n :: h :: (u ++ rest) := by simp [split, part]
      exact run.told threads turns (fun _ ha => ha) mine asks hears
    refine ⟨t, rest, o, rfl, unfinished, course.imp fun _ prepared => prepared.accepts, ?_⟩
    intro ms steady builtIn
    refine ⟨course.imp fun part prepared delivered => ?_, fun describable => ?_⟩
    · exact prepared.completesBoth delivered (part ▸ steady) builtIn
    · exact Event.quiet_emit (fun d hd => steady d hd ▸ builtIn) describable plays
  · rw [Middleware.verdict, Middleware.describe?_of_not_describable h]
    rfl

/-- An event without listeners, and the three built-in middleware. -/
def chimeEnv : Surroundings Unit := ⟨Host.silent, { registry := ⟨[]⟩ }⟩

def chimeWorld : World Unit where
  shared := {
    host := ()
    clock := default
    subscribers := { middleware := [.outcomeLog 0, .faultLog 0, .tally 0] } }

def chiming (argument : Value) : Script Unit Unit :=
  .ask (.effect (.emit "chime" [argument] [])) fun r => .done (r.map fun _ => .none)

def chimeRun (argument : Value) : List (Moment Unit) × World Unit :=
  World.follow chimeEnv (some (.perform (chiming argument)) :: List.replicate 40 none) [] chimeWorld

theorem chimeRun_recorded (argument : Value) : Records chimeEnv Act.Patient [] chimeWorld
    (chimeRun argument).1 (chimeRun argument).2 := by
  refine Records.start.follow fun a ha => ?_
  obtain rfl : a = .perform (chiming argument) := by simpa [List.mem_replicate] using ha
  trivial

theorem chimeRun_steady : ∀ d ∈ own 0 (chimeRun .none).1,
    d.before.shared.subscribers.middleware = [.outcomeLog 0, .faultLog 0, .tally 0] := by
  have steady : (own 0 (chimeRun .none).1).map (·.before.shared.subscribers.middleware) =
    List.replicate 27 [.outcomeLog 0, .faultLog 0, .tally 0] := rfl
  intro d hd
  exact List.eq_of_mem_replicate (steady ▸ List.mem_map_of_mem hd)

/-- All three are called twice, and the event is over. -/
theorem chime_accepted : ∃ b m t rest o, own 0 (chimeRun .none).1 = [b] ++ m :: (t ++ rest) ∧
    m.deed = .asks (.effect (.emit "chime" [.none] [])) ∧ o ≠ none ∧
    Event.Course chimeEnv "chime" [.none] []
      (Event.CompletesBoth chimeEnv "chime" [.none] [] [.outcomeLog 0, .faultLog 0, .tally 0]) t o ∧
    ∀ d ∈ t, d.deed.Quiet := by
  obtain ⟨b, m, after, split, emits⟩ : ∃ b m after, own 0 (chimeRun .none).1 = [b] ++ m :: after ∧
      m.deed = .asks (.effect (.emit "chime" [.none] [])) := ⟨_, _, _, rfl, rfl⟩
  obtain ⟨⟨t, rest, o, rfl, unfinished, -, alone⟩, -⟩ :=
    Records.built_in_accept rfl rfl (chimeRun_recorded .none) split emits rfl
  obtain ⟨course, quiet⟩ :=
    alone _ (fun d hd => chimeRun_steady d (by simp [split, hd])) (by simp [Middleware.BuiltIn])
  exact ⟨b, m, t, rest, o, split, emits, fun none => (unfinished none).2 _ rfl, course, quiet (.inl rfl)⟩

/-- The outcome log cannot describe a text. -/
theorem chime_misread : ∃ b m t e u, own 0 (chimeRun (.text "hi")).1 = [b] ++ m :: (t ++ e :: u) ∧
    m.deed = .asks (.effect (.emit "chime" [.text "hi"] [])) ∧
    e.deed = .asks (.effect (.note
      (.middlewareFailed "LoggingMiddleware" true (.noAttribute "str" "success")))) ∧
    ¬ ∀ d ∈ own 0 (chimeRun (.text "hi")).1, d.deed.Quiet := by
  obtain ⟨b, m, t, e, u, split, emits, noted⟩ : ∃ b m t e u,
      own 0 (chimeRun (.text "hi")).1 = [b] ++ m :: (t ++ e :: u) ∧
      m.deed = .asks (.effect (.emit "chime" [.text "hi"] [])) ∧
      e.deed = .asks (.effect (.note
        (.middlewareFailed "LoggingMiddleware" true (.noAttribute "str" "success")))) :=
    ⟨_, _, [_, _, _, _, _, _, _, _, _, _, _, _, _, _, _], _, _, rfl, rfl, rfl⟩
  exact ⟨b, m, t, e, u, split, emits, noted, fun quiet => quiet e (by simp [split]) _ _ _ noted⟩

end World
end ChatCommands
