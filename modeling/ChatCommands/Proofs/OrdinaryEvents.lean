import Mathlib
import ChatCommands.Proofs.OrdinaryHost

set_option autoImplicit false

/-!
# Events of ordinary hosts

The emission of an event ends without a fault if no callback raises a fatal one
and the context keeps a list of the faults of listeners. What the middleware that
are built in cannot make sense of, they report as ordinary faults.
-/
namespace ChatCommands
open Engine
variable {σ : Type} {keeps : Prop} {host : Host σ}

namespace Event

theorem gathers_context (event : String) (arguments : List Value) (options : Assoc Value) :
    Gathers (context event arguments options) := by
  intro v h
  simp [context, Assoc.find?] at h

theorem Gathers.put {context : EventContext} (h : Gathers context) {key : String}
    (other : "errors" ≠ key) (v : Value) : Gathers (context.put key v) := by
  intro w hw
  rw [Assoc.find?_put_of_ne _ other] at hw
  exact h w hw

theorem Gathers.erase {context : EventContext} (h : Gathers context) {key : String}
    (other : "errors" ≠ key) : Gathers (context.erase key) := by
  intro w hw
  rw [Assoc.find?_erase_of_ne _ other] at hw
  exact h w hw

end Event

namespace Middleware

theorem ordinary_subject? (context : EventContext) : Ordinary (subject? context) := by
  unfold subject?
  split
  · exact ordinary_ok _
  · split
    · unfold Value.first?
      split <;> simp [Fault.isOrdinary, Fault.severity]
    · exact ordinary_ok _

theorem ordinary_describe? (v : Value) : Ordinary (describe? v) := by
  cases v <;> simp [describe?, Fault.isOrdinary, Fault.severity]

theorem ordinary_tookText? (now : Binary64) (started : Value) : Ordinary (tookText? now started) := by
  unfold tookText?
  split
  · refine Ordinary.map ?_ _
    unfold secondsSince?
    split
    · exact ordinary_ok _
    · split <;> simp [Fault.isOrdinary, Fault.severity]
    · exact ordinary_ok _
    · simp [Fault.isOrdinary, Fault.severity]
  · exact ordinary_ok _

theorem ordinary_elements? (s : σ) (v : Value) : Ordinary (host.elements? s v) := by
  unfold Host.elements?
  split
  · exact ordinary_ok _
  · unfold Value.elements?
    split <;> simp [Fault.isOrdinary, Fault.severity]

/-- What a middleware leaves for the next one. -/
def Leaves (keeps : Prop) (r : Except Fault Value × EventContext) : Prop :=
  Ordinary r.1 ∧ (keeps → Event.Gathers r.2)

theorem leaves_ok (v : Value) {context : EventContext} (h : keeps → Event.Gathers context) :
    Leaves keeps (.ok v, context) := ⟨ordinary_ok v, h⟩

theorem leaves_error {f : Fault} {context : EventContext} (hf : f.isOrdinary = true)
    (h : keeps → Event.Gathers context) : Leaves keeps (.error f, context) :=
  ⟨(ordinary_error f).2 hf, h⟩

theorem usually_noteFaults (event : Value) (vs : List Value) :
    (noteFaults event vs : Engine σ Unit).Usually keeps fun _ => True := by
  induction vs with
  | nil => exact .done trivial
  | cons v vs ih => exact .noted _ ih

theorem usually_logBefore {context : EventContext} (h : keeps → Event.Gathers context) :
    (logBefore context : Engine σ _).Usually keeps (Leaves keeps) := by
  refine .asked trivial fun now _ => .noted _ (.done ?_)
  exact leaves_ok _ fun k => (h k).put (by decide) _

theorem usually_logAfter {context : EventContext} (h : keeps → Event.Gathers context) :
    (logAfter context : Engine σ _).Usually keeps (Leaves keeps) := by
  unfold logAfter
  have erased : keeps → Event.Gathers (context.erase "started_at") :=
    fun k => (h k).erase (by decide)
  split
  case h_1 f hf => exact .done (leaves_error (ordinary_subject? context f hf) h)
  case h_2 subject _ =>
    split
    case h_1 f hf => exact .done (leaves_error (ordinary_describe? subject f hf) h)
    case h_2 outcome _ =>
      refine .asked trivial ?_
      intro now _
      split
      case h_1 f hf => exact .done (leaves_error (ordinary_tookText? _ _ f hf) erased)
      case h_2 took _ => exact .noted _ (.done (leaves_ok _ erased))

theorem usually_faultsAfter (context : EventContext) :
    (faultsAfter host context).Usually keeps Ordinary := by
  unfold faultsAfter
  split
  case h_1 f hf => exact .done ((ordinary_error f).2 (ordinary_subject? context f hf))
  case h_2 subject _ =>
    extract_lets rest
    have usually_rest : ∀ u, (rest u).Usually keeps Ordinary := by
      intro _
      refine .asked trivial ?_
      intro s _
      split
      case h_1 f hf => exact .done ((ordinary_error f).2 (ordinary_elements? s _ f hf))
      case h_2 faults _ => exact (usually_noteFaults _ faults).bind fun _ _ => .done (ordinary_ok _)
    split
    · exact .noted _ (.noted _ (usually_rest ()))
    · exact usually_rest ()

theorem usually_countBefore (number : Nat) (context : EventContext) :
    (countBefore number context : Engine σ _).Usually keeps Ordinary := by
  unfold countBefore
  split
  case h_1 f hf => exact .done ((ordinary_error f).2 (ordinary_subject? context f hf))
  case h_2 =>
    split
    · exact .done (ordinary_ok _)
    · exact .asked trivial fun total _ => .noted _ (.done (ordinary_ok _))
  case h_3 => exact .done (ordinary_ok _)

theorem usually_call (ordinary : host.Ordinary) (kept : keeps → host.KeepsErrors) (phase : Phase)
    {context : EventContext} (h : keeps → Event.Gathers context) (m : Middleware) :
    (m.call host phase context).Usually keeps (Leaves keeps) := by
  cases m with
  | hook hook =>
    refine usually_perform (usually_noReply _) (Q := fun c r => Leaves keeps (r, c)) ?_
    have mannered := ordinary.middleware hook phase context
    by_cases k : keeps
    · exact (mannered.and (kept k hook phase context (h k))).mono fun c r both => ⟨both.1, fun _ => both.2⟩
    · exact mannered.mono fun c r hr => ⟨hr, fun k' => absurd k' k⟩
  | outcomeLog number =>
    cases phase with
    | before => exact usually_logBefore h
    | after => exact usually_logAfter h
  | faultLog number =>
    cases phase with
    | before => exact .done (leaves_ok _ h)
    | after => exact (usually_faultsAfter context).bind fun r hr => .done ⟨hr, h⟩
  | tally number =>
    cases phase with
    | before => exact (usually_countBefore number context).bind fun r hr => .done ⟨hr, h⟩
    | after => exact .done (leaves_ok _ h)

end Middleware

namespace Event

def Passed (keeps : Prop) (x : Except Fault Swept) : Prop :=
  ∃ swept, x = .ok swept ∧ (keeps → Gathers swept.context)

theorem usually_sweep (phase : Phase) (event : String) (index : Nat) {context : EventContext}
    (h : keeps → Gathers context) :
    (Engine.request (.sweep phase event index context) : Engine σ (Except Fault Swept)).Usually keeps
      (Passed keeps) := fun _ => ⟨h, fun _ hx => hx⟩

theorem usually_sweepFrom (ordinary : host.Ordinary) (kept : keeps → host.KeepsErrors)
    (phase : Phase) (event : String) (index : Nat) {context : EventContext}
    (h : keeps → Gathers context) :
    (sweepFrom host phase event index context).Usually keeps (Passed keeps) := by
  refine .asked trivial ?_
  intro m _
  cases m with
  | none => exact .done ⟨⟨context, false⟩, rfl, h⟩
  | some m =>
    refine (Middleware.usually_call ordinary kept phase h m).bind ?_
    rintro ⟨returned, context⟩ ⟨unfatal, gathers⟩
    cases returned with
    | ok v =>
      dsimp only
      split
      · exact .noted _ (.done ⟨⟨context, true⟩, rfl, gathers⟩)
      · exact usually_sweep phase event _ gathers
    | error f =>
      simp only [(ordinary_error f).1 unfatal, if_true]
      exact .noted _ (usually_sweep phase event _ gathers)

theorem addFault?_cases (f : Fault) (context : EventContext) :
    (∃ r, addFault? f context = .ok r ∧ (Gathers context → Gathers r.1)) ∨
      ¬ Gathers context ∧ ∃ type, addFault? f context = .error (.noAttribute type "append") := by
  unfold addFault?
  cases hv : context.find? "errors" with
  | none =>
    refine .inl ⟨_, rfl, fun _ w hw => ?_⟩
    rw [Assoc.find?_put_self] at hw
    exact .inl ⟨_, (Option.some.inj hw).symm⟩
  | some v =>
    simp only [Option.getD_some]
    cases v with
    | held n => exact .inl ⟨_, rfl, id⟩
    | list items =>
      refine .inl ⟨_, rfl, fun _ w hw => ?_⟩
      rw [Assoc.find?_put_self] at hw
      exact .inl ⟨_, (Option.some.inj hw).symm⟩
    | _ => exact .inr ⟨fun h => by simpa using h _ hv, _, rfl⟩

theorem usually_gatherFaults (event : String) {context : EventContext}
    (h : keeps → Gathers context) (results : List (Hook × Except Fault Value)) :
    (gatherFaults host event context results).Usually keeps fun x =>
      (∃ context, x = .ok context ∧ (keeps → Gathers context)) ∨ ∃ f, x = .error f ∧ Unlisted keeps f := by
  induction results generalizing context with
  | nil => exact .done (.inl ⟨context, rfl, h⟩)
  | cons e rest ih =>
    obtain ⟨hook, r⟩ := e
    simp only [gatherFaults]
    split
    · exact ih h
    · refine .noted _ ?_
      rename_i f _
      rcases addFault?_cases f context with ⟨⟨context, number⟩, added, gathers⟩ | ⟨lost, type, refused⟩
      · rw [added]
        have h' : keeps → Gathers context := fun k => gathers (h k)
        cases number with
        | none => exact ih h'
        | some n => exact .asked trivial fun _ _ => ih h'
      · rw [refused]
        exact .done (.inr ⟨_, rfl, fun k => lost (h k), type, rfl⟩)

/-- How an event ends: with nothing but a fault of adding to what is no list, unless its options
have names that are not their own. -/
def Emitted (keeps : Prop) (options : Assoc Value) (x : Except Fault Unit) : Prop :=
  Ordinary x ∧ (options = [] → ∀ f, x = .error f → Unlisted keeps f)

theorem emitted_ok (options : Assoc Value) : Emitted keeps options (.ok ()) := ⟨ordinary_ok _, nofun⟩

theorem emitted_unlisted (options : Assoc Value) {f : Fault} (h : Unlisted keeps f) :
    Emitted keeps options (.error f) := by
  refine ⟨(ordinary_error f).2 h.isOrdinary, ?_⟩
  rintro - _ ⟨⟩
  exact h

theorem emitted_named {options : Assoc Value} (h : options ≠ []) (called name : String) :
    Emitted keeps options (.error (.givenTwice called name)) :=
  ⟨(ordinary_error _).2 rfl, fun none => absurd none h⟩

theorem usually_notify (listeners : List Hook) (arguments : List Value) (options : Assoc Value) :
    (notify listeners arguments options : Engine σ _).Usually keeps fun x =>
      (∃ results, x = .ok results) ∨ ∃ f, x = .error f ∧ Emitted keeps options (.error f) := by
  unfold notify
  split
  case isTrue named =>
    refine .done (.inr ⟨_, rfl, emitted_named ?_ _ _⟩)
    rintro rfl
    simp [Assoc.keys] at named
  case isFalse => exact fun _ => ⟨trivial, fun _ hx => .inl hx⟩

theorem usually_emit (event : String) (arguments : List Value) (options : Assoc Value) :
    (emit host event arguments options).Usually keeps (Emitted keeps options) := by
  unfold emit
  split
  case h_1 name found =>
    refine .done (emitted_named ?_ _ _)
    rintro rfl
    simp [Assoc.keys] at found
  case h_2 =>
    refine .asked trivial ?_
    intro listeners _
    refine (usually_sweep .before event 0 fun _ => gathers_context event arguments options).bind ?_
    rintro _ ⟨⟨context, stopped⟩, rfl, gathers⟩
    cases stopped with
    | true => exact .done (emitted_ok options)
    | false =>
      refine (usually_notify listeners arguments options).bind ?_
      rintro _ (⟨results, rfl⟩ | ⟨f, rfl, hf⟩)
      · refine (usually_gatherFaults event gathers _).bind ?_
        rintro _ (⟨context, rfl, gathers⟩ | ⟨f, rfl, hf⟩)
        · refine (usually_sweep .after event 0 gathers).bind ?_
          rintro _ ⟨swept, rfl, -⟩
          exact .done (emitted_ok options)
        · exact .done (emitted_unlisted options hf)
      · exact .done hf

end Event
end ChatCommands
