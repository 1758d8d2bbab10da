import Mathlib
import ChatCommands.Proofs.WorldDiscipline

set_option autoImplicit false

/-!
# What threads do

A thread begins a task, makes one request after the other, is told what it has
waited for, and ends. A program is played by such deeds: a request is answered
from the shared state, or it is unfolded and the program that it stands for is
played first, or the play goes on with what is told. A play that is not over may
break off anywhere, so that whatever is proved of plays holds at each moment.
-/
namespace ChatCommands
variable {σ α β S : Type}

inductive Deed (σ : Type) where
  | begins (task : Task σ)
  | asks (r : EngineRequest σ)
  /-- the host goes on with the thread -/
  | resumes (x : Except Fault Value)
  /-- the thread is told what its own tasks have ended with -/
  | hears (results : Except Fault (List (Except Fault Value)))
  | ends (r : Finish)

/-- A deed of a thread in the world as it was just before. -/
structure Moment (σ : Type) where
  thread : Nat
  before : World σ
  deed : Deed σ

/-- The deeds play the program, to its result or so far. -/
inductive Plays (env : Surroundings σ) : Engine σ α → List (Moment σ) → Option α → Prop where
  | pause (p : Engine σ α) : Plays env p [] none
  | done (a : α) : Plays env (.done a) [] (some a)
  | answered {m : Moment σ} {r : EngineRequest σ} {next : r.Answer → Engine σ α} {x : r.Answer}
      {s : Shared σ} {t : List (Moment σ)} {o : Option α} (asked : m.deed = .asks r)
      (answer : Answers env m.before.shared r x s) (rest : Plays env (next x) t o) :
      Plays env (.ask r next) (m :: t) o
  | unfolded {m : Moment σ} {r : EngineRequest σ} {next : r.Answer → Engine σ α}
      {p : Engine σ r.Answer} {t : List (Moment σ)} {o : Option α} (asked : m.deed = .asks r)
      (expands : Expands env r p) (rest : Plays env (p.bind next) t o) :
      Plays env (.ask r next) (m :: t) o
  | waits {m : Moment σ} {next : Except Fault Value → Engine σ α}
      (asked : m.deed = .asks (.effect .wait)) : Plays env (.ask (.effect .wait) next) [m] none
  | resumed {m m' : Moment σ} {next : Except Fault Value → Engine σ α} {x : Except Fault Value}
      {t : List (Moment σ)} {o : Option α} (asked : m.deed = .asks (.effect .wait))
      (told : m'.deed = .resumes x) (rest : Plays env (next x) t o) :
      Plays env (.ask (.effect .wait) next) (m :: m' :: t) o
  | notifies {m : Moment σ} {listeners : List Hook} {arguments : List Value}
      {options : Assoc Value} {next : Except Fault (List (Except Fault Value)) → Engine σ α}
      (asked : m.deed = .asks (.notify listeners arguments options)) :
      Plays env (.ask (.notify listeners arguments options) next) [m] none
  | heard {m m' : Moment σ} {listeners : List Hook} {arguments : List Value}
      {options : Assoc Value} {next : Except Fault (List (Except Fault Value)) → Engine σ α}
      {xs : Except Fault (List (Except Fault Value))} {t : List (Moment σ)} {o : Option α}
      (asked : m.deed = .asks (.notify listeners arguments options)) (told : m'.deed = .hears xs)
      (rest : Plays env (next xs) t o) :
      Plays env (.ask (.notify listeners arguments options) next) (m :: m' :: t) o

/-- The shared state has an answer to the request, which is neither unfolded nor waited for. -/
def EngineRequest.Prompt : EngineRequest σ → Prop
  | .effect e => match e with
    | .wait | .dispatch _ | .emit .. => False
    | _ => True
  | .sweep .. | .notify .. => False
  | _ => True

namespace Plays
variable {env : Surroundings σ} {p : Engine σ α} {f : α → Engine σ β} {t u : List (Moment σ)}

theorem cut {o : Option α} (h : Plays env p t o) : Plays env p t none := by
  induction h with
  | pause | done => exact .pause _
  | answered asked answer _ ih => exact .answered asked answer ih
  | unfolded asked expands _ ih => exact .unfolded asked expands ih
  | waits asked => exact .waits asked
  | resumed asked told _ ih => exact .resumed asked told ih
  | notifies asked => exact .notifies asked
  | heard asked told _ ih => exact .heard asked told ih

/-- A play goes on with what follows the program. -/
theorem bind {a : α} {o : Option β} (first : Plays env p t (some a)) (rest : Plays env (f a) u o) :
    Plays env (p.bind f) (t ++ u) o := by
  generalize ho : some a = o' at first
  induction first with
  | pause | waits | notifies => cases ho
  | done => cases ho; exact rest
  | answered asked answer _ ih => exact .answered asked answer (ih ho)
  | @unfolded _ r next p t o asked expands _ ih =>
    have unfolded := ih ho
    rw [Program.bind_assoc] at unfolded
    exact .unfolded asked expands unfolded
  | resumed asked told _ ih => exact .resumed asked told (ih ho)
  | heard asked told _ ih => exact .heard asked told (ih ho)

/-- A play of a program and what follows it breaks off in the program, or it plays one and then the
other. -/
theorem of_bind {o : Option β} (h : Plays env (p.bind f) t o) :
    (o = none ∧ Plays env p t none) ∨
      ∃ u v a, t = u ++ v ∧ Plays env p u (some a) ∧ Plays env (f a) v o := by
  -- the induction is on the number of deeds, since unfolding a request makes the program larger
  obtain ⟨n, hn⟩ : ∃ n, t.length ≤ n := ⟨_, le_rfl⟩
  induction n generalizing p t with
  | zero =>
    obtain rfl := List.eq_nil_of_length_eq_zero (Nat.le_zero.1 hn)
    cases p with
    | done a => exact .inr ⟨[], [], a, rfl, .done a, h⟩
    | ask r next =>
      cases h
      exact .inl ⟨rfl, .pause _⟩
  | succ n ih =>
    cases p with
    | done a => exact .inr ⟨[], t, a, rfl, .done a, h⟩
    | ask r next =>
      cases h with
      | pause => exact .inl ⟨rfl, .pause _⟩
      | @answered m _ _ x s t _ asked answer rest =>
        rcases ih rest (by simpa using hn) with ⟨rfl, first⟩ | ⟨u, v, a, rfl, first, second⟩
        · exact .inl ⟨rfl, .answered asked answer first⟩
        · exact .inr ⟨m :: u, v, a, rfl, .answered asked answer first, second⟩
      | @unfolded m _ _ q t _ asked expands rest =>
        rw [← Program.bind_assoc] at rest
        rcases ih rest (by simpa using hn) with ⟨rfl, first⟩ | ⟨u, v, a, rfl, first, second⟩
        · exact .inl ⟨rfl, .unfolded asked expands first⟩
        · exact .inr ⟨m :: u, v, a, rfl, .unfolded asked expands first, second⟩
      | waits asked => exact .inl ⟨rfl, .waits asked⟩
      | @resumed m m' _ x t _ asked told rest =>
        rcases ih rest (by simp at hn; omega) with ⟨rfl, first⟩ | ⟨u, v, a, rfl, first, second⟩
        · exact .inl ⟨rfl, .resumed asked told first⟩
        · exact .inr ⟨m :: m' :: u, v, a, rfl, .resumed asked told first, second⟩
      | notifies asked => exact .inl ⟨rfl, .notifies asked⟩
      | @heard m m' _ _ _ _ xs t _ asked told rest =>
        rcases ih rest (by simp at hn; omega) with ⟨rfl, first⟩ | ⟨u, v, a, rfl, first, second⟩
        · exact .inl ⟨rfl, .heard asked told first⟩
        · exact .inr ⟨m :: m' :: u, v, a, rfl, .heard asked told first, second⟩

theorem of_prompt {r : EngineRequest σ} {f : r.Answer → Engine σ α} {o : Option α} (prompt : r.Prompt)
    (h : Plays env ((Engine.request r).bind f) t o) :
    (t = [] ∧ o = none) ∨ ∃ m x s u, t = m :: u ∧ m.deed = .asks r ∧
      Answers env m.before.shared r x s ∧ Plays env (f x) u o := by
  cases h with
  | pause => exact .inl ⟨rfl, rfl⟩
  | answered asked answer rest => exact .inr ⟨_, _, _, _, rfl, asked, answer, rest⟩
  | unfolded asked expands => cases expands <;> exact prompt.elim
  | waits | resumed | notifies | heard => exact prompt.elim

theorem of_notify {listeners : List Hook} {arguments : List Value} {options : Assoc Value}
    {f : Except Fault (List (Except Fault Value)) → Engine σ α} {o : Option α}
    (h : Plays env ((Engine.request (.notify listeners arguments options)).bind f) t o) :
    (t = [] ∧ o = none) ∨ ∃ m, m.deed = .asks (.notify listeners arguments options) ∧
      ((t = [m] ∧ o = none) ∨ ∃ m' xs u, t = m :: m' :: u ∧ m'.deed = .hears xs ∧
        Plays env (f xs) u o) := by
  cases h with
  | pause => exact .inl ⟨rfl, rfl⟩
  | answered asked answer => cases answer
  | unfolded asked expands => cases expands
  | notifies asked => exact .inr ⟨_, asked, .inl ⟨rfl, rfl⟩⟩
  | heard asked told rest => exact .inr ⟨_, asked, .inr ⟨_, _, _, rfl, told, rest⟩⟩

/-- Where a request is unfolded, what it stands for is played next, to its result or as far as the play
goes. -/
theorem of_expands {r : EngineRequest σ} {q : Engine σ r.Answer} (expands : Expands env r q)
    (unanswered : ∀ s x s', ¬ Answers env s r x s') {o : Option α} (h : Plays env p t o)
    {m : Moment σ} {before after : List (Moment σ)} (split : t = before ++ m :: after)
    (asks : m.deed = .asks r) :
    ∃ v rest o', after = v ++ rest ∧ Plays env q v o' ∧ (o' = none → rest = [] ∧ o = none) := by
  have behind : ∀ {a : Moment σ} {l before : List (Moment σ)}, a :: l = before ++ m :: after →
      a.deed ≠ .asks r → ∃ before, l = before ++ m :: after := by
    intro a l before split other
    rcases List.cons_eq_append_iff.1 split with ⟨-, here⟩ | ⟨before, -, later⟩
    · exact absurd (List.cons.inj here).1 fun same => other (same ▸ asks)
    · exact ⟨before, later⟩
  have unfolds : ∀ {a : Moment σ} {r' : EngineRequest σ}, a.deed = .asks r' → (∀ q, ¬ Expands env r' q) →
      a.deed ≠ .asks r := by
    rintro a r' asked none asks
    cases asked.symm.trans asks
    exact none q expands
  -- along the play up to the deed, which can only be one that unfolds the request
  induction h generalizing before with
  | pause | done => simp at split
  | @answered a r' _ x s' _ _ asked answer _ ih =>
    obtain ⟨before, later⟩ := behind split fun asks => by
      cases asked.symm.trans asks
      exact unanswered _ _ _ answer
    exact ih later
  | @unfolded a r' next q' t o asked expands' plays ih =>
    rcases List.cons_eq_append_iff.1 split with ⟨rfl, here⟩ | ⟨before, rfl, later⟩
    · obtain ⟨rfl, rfl⟩ := List.cons.inj here
      cases asked.symm.trans asks
      obtain rfl : q' = q := by cases expands <;> cases expands' <;> rfl
      rcases plays.of_bind with ⟨rfl, first⟩ | ⟨v, rest, x, rfl, first, -⟩
      · exact ⟨after, [], none, by simp, first, fun _ => ⟨rfl, rfl⟩⟩
      · exact ⟨v, rest, some x, rfl, first, nofun⟩
    · exact ih later
  | waits asked | notifies asked =>
    obtain ⟨before, later⟩ := behind split (unfolds asked fun _ => nofun)
    simp at later
  | resumed asked told _ ih | heard asked told _ ih =>
    obtain ⟨before, later⟩ := behind split (unfolds asked fun _ => nofun)
    obtain ⟨before, later⟩ := behind later (by simp [told])
    exact ih later

/-- What is played keeps to a property of requests that holds of the program and of all that it stands
for. -/
theorem uses {P : EngineRequest σ → Prop} (closed : ∀ r q, P r → Expands env r q → q.Uses P)
    {o : Option α} (h : Plays env p t o) (uses : p.Uses P) :
    ∀ m ∈ t, ∀ r, m.deed = .asks r → P r := by
  induction h with
  | pause | done => simp
  | answered asked _ _ ih =>
    refine List.forall_mem_cons.2 ⟨fun r hr => ?_, ih (uses.2 _)⟩
    cases asked.symm.trans hr
    exact uses.1
  | unfolded asked expands _ ih =>
    refine List.forall_mem_cons.2 ⟨fun r hr => ?_, ih ((closed _ _ uses.1 expands).bind uses.2)⟩
    cases asked.symm.trans hr
    exact uses.1
  | waits asked | notifies asked =>
    refine List.forall_mem_singleton.2 fun r hr => ?_
    cases asked.symm.trans hr
    exact uses.1
  | resumed asked told _ ih | heard asked told _ ih =>
    refine List.forall_mem_cons.2 ⟨fun r hr => ?_, List.forall_mem_cons.2 ⟨fun r hr => ?_, ih (uses.2 _)⟩⟩
    · cases asked.symm.trans hr
      exact uses.1
    · cases told.symm.trans hr

/-- A complete play makes a trace of the program. -/
theorem exists_traces {a : α} (h : Plays env p t (some a)) : ∃ u, p.Traces u a := by
  generalize ho : some a = o at h
  induction h with
  | pause | waits | notifies => cases ho
  | done => cases ho; exact ⟨[], .done a⟩
  | answered _ _ _ ih | resumed _ _ _ ih | heard _ _ _ ih =>
    obtain ⟨u, traces⟩ := ih ho
    exact ⟨_, .ask traces⟩
  | unfolded _ _ _ ih =>
    obtain ⟨u, traces⟩ := ih ho
    obtain ⟨-, v, x, -, -, traces⟩ := Program.traces_bind_iff.1 traces
    exact ⟨_, .ask traces⟩

/-- A complete play ends as a discipline says that the world keeps, if what the thread is told can be
counted on. -/
theorem follows {D : Discipline (engineInterface σ) S} {fresh : S} {Q : S → Finish → Prop}
    {R : Except Fault Value → Prop} (kept : D.Kept env fresh Q R)
    (still : ∀ s r x, D.next s r x = s) {s : S} {a : α} {P : S → α → Prop}
    (h : Plays env p t (some a)) (follows : p.Follows D P s)
    (resumed : ∀ m ∈ t, ∀ x, m.deed = .resumes x → D.expects s (.effect .wait) x)
    (heard : ∀ m ∈ t, ∀ xs, m.deed = .hears xs → ∀ listeners arguments options,
      D.expects s (.notify listeners arguments options) xs) : P s a := by
  generalize ho : some a = o at h
  induction h with
  | pause | waits | notifies => cases ho
  | done => cases ho; exact follows
  | answered _ answer _ ih =>
    have going := follows.2 _ (kept.answered answer follows.1)
    rw [still] at going
    exact ih going (fun m hm => resumed m (by simp [hm])) (fun m hm => heard m (by simp [hm])) ho
  | unfolded _ expands _ ih =>
    refine ih ((kept.expanded expands follows.1).bind ?_) (fun m hm => resumed m (by simp [hm]))
      (fun m hm => heard m (by simp [hm])) ho
    rintro _ x ⟨expected, rfl⟩
    simpa only [still] using follows.2 x expected
  | resumed _ told _ ih =>
    have going := follows.2 _ (resumed _ (by simp) _ told)
    rw [still] at going
    exact ih going (fun m hm => resumed m (by simp [hm])) (fun m hm => heard m (by simp [hm])) ho
  | heard _ told _ ih =>
    have going := follows.2 _ (heard _ (by simp) _ told _ _ _)
    rw [still] at going
    exact ih going (fun m hm => resumed m (by simp [hm])) (fun m hm => heard m (by simp [hm])) ho

end Plays
end ChatCommands
