import Mathlib
import ChatCommands.Proofs.TrackerSettles

set_option autoImplicit false

/-!
# A message that is dispatched alone

From the moment at which a message is handed over, the host only goes on with
tasks that wait for it, and it may change what is shared. Then all that the
message leads to is the dispatch itself, played by one thread, and the calls of
listeners. The dispatch is decided by the first stage that fails, and the tracker
has settled once it is over.
-/
namespace ChatCommands
variable {σ : Type} {env : Surroundings σ}

/-- The host starts and cancels nothing, and goes on with nothing fatal. -/
def Act.Alone : Act σ → Prop
  | .answer _ x => ChatCommands.Ordinary x
  | .arrange _ | .adjust _ => True
  | _ => False

theorem Act.Alone.patient {a : Act σ} (h : a.Alone) : a.Patient := by
  cases a with
  | cancel root => exact h
  | _ => trivial

theorem Act.Alone.ordinary {a : Act σ} (h : a.Alone) : a.Ordinary := by
  cases a with
  | receive m | perform script | cancel root => exact h.elim
  | _ => exact h

theorem Act.Alone.ends {a : Act σ} (h : a.Alone) : a.Ends env := by
  cases a with
  | perform script => exact h.elim
  | _ => trivial

/-- What is done after a message was handed over: threads begin for listeners only, and they are told
nothing fatal. -/
def Deed.Follows (env : Surroundings σ) : Deed σ → Prop
  | .begins p => ∃ h arguments options,
      p = (Engine.runScript (env.host.listener h arguments options)).bind fun r => .done (.value r)
  | .resumes x => Ordinary x
  | _ => True

namespace World
variable {permitted : Act σ → Prop} {log₀ log : List (Moment σ)} {w₀ w : World σ}

theorem Records.mono {permitted' : Act σ → Prop} (run : Records env permitted log₀ w₀ log w)
    (le : ∀ a, permitted a → permitted' a) : Records env permitted' log₀ w₀ log w := by
  induction run with
  | start => exact .start
  | tick run ih => exact ih.tick
  | act run a ha ih => exact ih.act a (le a ha)

theorem Records.grows (run : Records env permitted log₀ w₀ log w) : log₀ <+: log := by
  induction run with
  | start => exact List.prefix_refl _
  | tick run ih | act run a ha ih => exact ih.trans (List.prefix_append _ _)

theorem follows_of_mem_taken {m : Moment σ} (h : m ∈ w.taken env) : m.deed.Follows env := by
  have takes := w.takes env
  generalize w.taken env = new at h takes
  cases takes with
  | nothing => cases h
  | asks =>
    rcases List.mem_cons.1 h with rfl | h
    · trivial
    · rcases mem_ensuing h with ⟨-, hears⟩ | ⟨-, k, arguments, options, begins⟩
      · rw [hears]
        trivial
      · rw [begins]
        exact ⟨k, arguments, options, rfl⟩
  | ends | hears =>
    obtain rfl := List.mem_singleton.1 h
    trivial

theorem follows_of_mem_acted {m : Moment σ} {a : Act σ} (ha : a.Alone) (h : m ∈ w.acted env a) :
    m.deed.Follows env := by
  cases a with
  | answer i x =>
    simp only [acted] at h
    split at h
    · obtain rfl := List.mem_singleton.1 h
      exact ha
    · cases h
  | arrange | adjust => cases h
  | receive | perform | cancel => exact ha.elim

theorem Records.follows (run : Records env Act.Alone log₀ w₀ log w) :
    ∀ m ∈ log, m ∈ log₀ ∨ m.deed.Follows env := by
  induction run with
  | start => exact fun m hm => .inl hm
  | tick run ih =>
    intro m hm
    rcases List.mem_append.1 hm with old | new
    · exact ih m old
    · exact .inr (follows_of_mem_taken new)
  | act run a ha ih =>
    intro m hm
    rcases List.mem_append.1 hm with old | new
    · exact ih m old
    · exact .inr (follows_of_mem_acted ha new)

variable {first : World σ} {m : Message}

theorem acted_receive (env : Surroundings σ) (threads : first.threads = []) (m : Message) :
    first.acted env (.receive m) = [⟨0, first,
      .begins ((env.dispatcher.process env.host m).bind fun r => .done (.outcome r))⟩] := by
  simp [acted, threads]

section
variable (threads : first.threads = []) (turns : first.turns = [])
  (run : Records env Act.Alone (first.acted env (.receive m)) (first.act env (.receive m)) log w)
include threads run

include turns in
/-- No thread is told anything fatal. -/
theorem Records.calm : Dispatcher.Calm log where
  resumed d hd x told := by
    rcases run.follows d hd with old | follows
    · rw [acted_receive env threads, List.mem_singleton] at old
      cases (congrArg Moment.deed old).symm.trans told
    · rw [told] at follows
      exact follows
  heard d hd xs told := by
    obtain ⟨earlier, after, split⟩ := List.append_of_mem hd
    obtain ⟨c, u, listeners, arguments, options, results, -, -, rfl, -⟩ := run.heard
      ((Traced.of_empty threads).moves (moves_act env first trivial))
      (fun d hd _ _ _ asks => absurd asks (not_asks_of_mem_acted hd))
      ((joined_of_empty threads turns).act env trivial) (fun _ => Act.Alone.patient)
      (by simp [acted_receive env threads]) split told
    exact ⟨results, rfl⟩

end

end World

/-- The table after more tags were registered. -/
def ParserTable.registerAll (t : ParserTable) (later : List (String × ArgumentParser)) : ParserTable :=
  later.foldl (fun t e => t.register e.1 e.2) t

theorem ParserTable.knows_registerAll {t : ParserTable} {tag : Option String} (h : t.knows tag = true)
    (later : List (String × ArgumentParser)) : (t.registerAll later).knows tag = true := by
  induction later generalizing t with
  | nil => exact h
  | cons e later ih =>
    refine ih ?_
    cases tag with
    | none => rfl
    | some name =>
      unfold knows parser? at h ⊢
      by_cases same : name = e.1
      · simp [register, same, Assoc.find?_put_self]
      · simpa [register, Assoc.find?_put_of_ne _ same] using h

namespace Dispatcher

end Dispatcher
end ChatCommands
