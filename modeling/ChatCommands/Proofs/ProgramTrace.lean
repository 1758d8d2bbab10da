import Mathlib
import ChatCommands.Host.Program

set_option autoImplicit false

/-!
# Traces and disciplines of programs

A trace of a program lists the requests that it makes until it ends, each with
the answer that it gets. Nothing is said about where the answers come from, so
that the traces of a program cover every way of running it with others.

A discipline says of each state which requests are allowed, which answers can
be counted on, and what the next state is. A program follows it if, as long as
its requests get such answers, it makes allowed requests only and ends well.
-/
namespace ChatCommands

abbrev Exchange (I : Interface) := (r : I.Request) × I.Answer r

structure Discipline (I : Interface) (S : Type) where
  allows : S → I.Request → Prop
  expects : S → (r : I.Request) → I.Answer r → Prop
  next : S → (r : I.Request) → I.Answer r → S

namespace Program
variable {I : Interface} {S α β : Type}

/-- The program makes the requests of the trace, gets its answers and ends with the result. -/
inductive Traces : Program I α → List (Exchange I) → α → Prop where
  | done (a : α) : Traces (.done a) [] a
  | ask {r : I.Request} {next : I.Answer r → Program I α} {x : I.Answer r}
      {t : List (Exchange I)} {a : α} (tail : Traces (next x) t a) :
      Traces (.ask r next) (⟨r, x⟩ :: t) a

@[simp] theorem traces_done_iff {a b : α} {t : List (Exchange I)} :
    Traces (.done a) t b ↔ t = [] ∧ a = b := by
  constructor
  · rintro ⟨⟩
    exact ⟨rfl, rfl⟩
  · rintro ⟨rfl, rfl⟩
    exact .done a

theorem traces_ask_iff {r : I.Request} {next : I.Answer r → Program I α} {t : List (Exchange I)}
    {a : α} : Traces (.ask r next) t a ↔ ∃ x u, t = ⟨r, x⟩ :: u ∧ Traces (next x) u a := by
  constructor
  · intro h
    cases h with
    | @ask _ _ x u _ tail => exact ⟨x, u, rfl, tail⟩
  · rintro ⟨x, u, rfl, tail⟩
    exact .ask tail

theorem traces_bind_iff {p : Program I α} {f : α → Program I β} {t : List (Exchange I)} {b : β} :
    Traces (p.bind f) t b ↔ ∃ u v a, t = u ++ v ∧ Traces p u a ∧ Traces (f a) v b := by
  constructor
  · intro h
    induction p generalizing t with
    | done a => exact ⟨[], t, a, rfl, .done a, h⟩
    | ask r next ih =>
      obtain ⟨x, w, rfl, tail⟩ := traces_ask_iff.1 h
      obtain ⟨u, v, a, rfl, first, rest⟩ := ih x tail
      exact ⟨⟨r, x⟩ :: u, v, a, rfl, .ask first, rest⟩
  · rintro ⟨u, v, a, rfl, first, rest⟩
    induction first with
    | done a => exact rest
    | ask _ ih => exact .ask (ih rest)

/-- Whatever the answers are, as long as what was asked before decides them, there is a trace with them. -/
theorem exists_traces (answer : List (Exchange I) → (r : I.Request) → I.Answer r) (p : Program I α) :
    ∃ t a, p.Traces t a ∧ ∀ u e v, t = u ++ e :: v → e.2 = answer u e.1 := by
  induction p generalizing answer with
  | done a => exact ⟨[], a, .done a, by simp⟩
  | ask r next ih =>
    obtain ⟨t, a, traces, answered⟩ := ih (answer [] r) fun u => answer (⟨r, answer [] r⟩ :: u)
    refine ⟨⟨r, answer [] r⟩ :: t, a, .ask traces, ?_⟩
    rintro (_ | ⟨_, u⟩) e v split
    · obtain ⟨rfl, rfl⟩ := List.cons.inj split
      rfl
    · obtain ⟨rfl, tail⟩ := List.cons.inj split
      exact answered u e v tail

/-- No trace goes on after another one has ended. -/
theorem Traces.unique {p : Program I α} {t u v : List (Exchange I)} {a b : α}
    (first : Traces p t a) (second : Traces p u b) (h : t ++ v = u) : v = [] ∧ a = b := by
  induction first generalizing u with
  | done a =>
    obtain ⟨rfl, rfl⟩ := traces_done_iff.1 second
    exact ⟨h, rfl⟩
  | ask _ ih =>
    obtain ⟨x, w, rfl, tail⟩ := traces_ask_iff.1 second
    obtain ⟨same, rest⟩ := List.cons.inj h
    cases same
    exact ih tail rest

theorem Traces.same {p : Program I α} {t u v w : List (Exchange I)} {a b : α} (first : Traces p t a)
    (second : Traces p u b) (h : t ++ v = u ++ w) : t = u ∧ v = w ∧ a = b := by
  rcases List.append_eq_append_iff.1 h with ⟨x, rfl, rfl⟩ | ⟨x, rfl, rfl⟩
  · obtain ⟨rfl, rfl⟩ := first.unique second rfl
    simp
  · obtain ⟨rfl, rfl⟩ := second.unique first rfl
    simp

section answered

/-- Each answer in the trace is the one that is given after what was asked before. -/
def Answered (answer : List (Exchange I) → (r : I.Request) → I.Answer r) (t : List (Exchange I)) :
    Prop :=
  ∀ u e v, t = u ++ e :: v → e.2 = answer u e.1

variable {answer : List (Exchange I) → (r : I.Request) → I.Answer r} {t u : List (Exchange I)}

theorem Answered.left (h : Answered answer (t ++ u)) : Answered answer t := by
  rintro before e after rfl
  exact h before e (after ++ u) (by simp)

theorem Answered.right (h : Answered answer (t ++ u)) : Answered (fun v => answer (t ++ v)) u := by
  rintro before e after rfl
  exact h (t ++ before) e after (by simp)

/-- The answers decide what a program asks and how it ends. -/
theorem Traces.same_of_answered {p : Program I α} {a b : α} (first : Traces p t a)
    (second : Traces p u b) (ht : Answered answer t) (hu : Answered answer u) : t = u ∧ a = b := by
  induction first generalizing answer u with
  | done a =>
    obtain ⟨rfl, rfl⟩ := traces_done_iff.1 second
    exact ⟨rfl, rfl⟩
  | @ask r next x t a tail ih =>
    obtain ⟨y, v, rfl, rest⟩ := traces_ask_iff.1 second
    obtain rfl : x = y := (ht [] ⟨r, x⟩ t rfl).trans (hu [] ⟨r, y⟩ v rfl).symm
    obtain ⟨rfl, rfl⟩ := ih rest (Answered.right (t := [⟨r, x⟩]) ht) (Answered.right (t := [⟨r, x⟩]) hu)
    exact ⟨rfl, rfl⟩

end answered

/-- From a state on, the program keeps to the discipline and ends as `Q` says. -/
def Follows (D : Discipline I S) (Q : S → α → Prop) : S → Program I α → Prop
  | s, .done a => Q s a
  | s, .ask r next => D.allows s r ∧ ∀ x, D.expects s r x → Follows D Q (D.next s r x) (next x)

variable {D : Discipline I S}

theorem Follows.mono {Q R : S → α → Prop} {s : S} {p : Program I α} (h : Follows D Q s p)
    (implies : ∀ s a, Q s a → R s a) : Follows D R s p := by
  induction p generalizing s with
  | done a => exact implies s a h
  | ask r next ih => exact ⟨h.1, fun x hx => ih x (h.2 x hx)⟩

theorem Follows.and {Q R : S → α → Prop} {s : S} {p : Program I α} (left : Follows D Q s p)
    (right : Follows D R s p) : Follows D (fun s a => Q s a ∧ R s a) s p := by
  induction p generalizing s with
  | done a => exact ⟨left, right⟩
  | ask r next ih => exact ⟨left.1, fun x hx => ih x (left.2 x hx) (right.2 x hx)⟩

theorem Follows.bind {Q : S → α → Prop} {R : S → β → Prop} {s : S} {p : Program I α}
    {f : α → Program I β} (first : Follows D Q s p)
    (rest : ∀ s a, Q s a → Follows D R s (f a)) : Follows D R s (p.bind f) := by
  induction p generalizing s with
  | done a => exact rest s a first
  | ask r next ih => exact ⟨first.1, fun x hx => ih x (first.2 x hx)⟩

/-- Under a discipline whose states never change, a program ends in the state it began in. -/
theorem Follows.still {Q : S → α → Prop} {s : S} {p : Program I α} (h : Follows D Q s p)
    (still : ∀ s r x, D.next s r x = s) : Follows D (fun s' a => Q s' a ∧ s' = s) s p := by
  induction p with
  | done a => exact ⟨h, rfl⟩
  | ask r next ih =>
    refine ⟨h.1, fun x hx => ?_⟩
    have rest := h.2 x hx
    rw [still] at rest ⊢
    exact ih x rest

/-- If every answer can be counted on, each trace ends as the discipline says. -/
theorem Follows.traced {Q : S → α → Prop} {s : S} {p : Program I α} {t : List (Exchange I)} {a : α}
    (h : p.Follows D Q s) (expected : ∀ s r x, D.expects s r x) (trace : Traces p t a) :
    Q (t.foldl (fun s e => D.next s e.1 e.2) s) a := by
  induction trace generalizing s with
  | done a => exact h
  | ask _ ih => exact ih (h.2 _ (expected _ _ _))

/-- Every request of the program has the property, whatever the answers. -/
def Uses (P : I.Request → Prop) : Program I α → Prop
  | .done _ => True
  | .ask r next => P r ∧ ∀ x, Uses P (next x)

variable {P : I.Request → Prop}

theorem uses_of_forall (h : ∀ r, P r) (p : Program I α) : Uses P p := by
  induction p with
  | done a => trivial
  | ask r next ih => exact ⟨h r, fun x => ih x⟩

theorem Uses.bind {p : Program I α} {f : α → Program I β} (first : Uses P p)
    (rest : ∀ a, Uses P (f a)) : Uses P (p.bind f) := by
  induction p with
  | done a => exact rest a
  | ask r next ih => exact ⟨first.1, fun x => ih x (first.2 x)⟩

theorem Uses.mono {P' : I.Request → Prop} {p : Program I α} (h : Uses P p)
    (implies : ∀ r, P r → P' r) : Uses P' p := by
  induction p with
  | done a => trivial
  | ask r next ih => exact ⟨implies r h.1, fun x => ih x (h.2 x)⟩

theorem Uses.mem {p : Program I α} {t : List (Exchange I)} {a : α} (h : Uses P p)
    (trace : Traces p t a) : ∀ e ∈ t, P e.1 := by
  induction trace with
  | done a => simp
  | ask _ ih => exact List.forall_mem_cons.2 ⟨h.1, ih (h.2 _)⟩

/-- Requests that a discipline always allows and that leave its states alone can be made freely. -/
theorem Uses.follows {p : Program I α} (h : Uses P p) (s : S)
    (allowed : ∀ r, P r → D.allows s r) (kept : ∀ r x, P r → D.next s r x = s) :
    Follows D (fun s' _ => s' = s) s p := by
  induction p with
  | done a => rfl
  | ask r next ih =>
    refine ⟨allowed r h.1, fun x _ => ?_⟩
    rw [kept r x h.1]
    exact ih x (h.2 x)

end Program
end ChatCommands
