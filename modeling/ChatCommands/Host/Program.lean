set_option autoImplicit false

/-!
# Programs

A program is a finite tree of requests: it ends with a result, or it makes a
request and goes on according to the answer. What a request means is left to
whoever runs the program, so that the same program can be run alone or with
others in any interleaving of their requests.
-/
namespace ChatCommands

/-- The requests that programs may make, each with the type of its answers. -/
structure Interface where
  Request : Type
  Answer : Request → Type

inductive Program (I : Interface) (α : Type) : Type where
  | done (a : α)
  | ask (r : I.Request) (next : I.Answer r → Program I α)

namespace Program
variable {I : Interface} {α β γ : Type}

/-- Goes on with another program once the first has ended. -/
def bind : Program I α → (α → Program I β) → Program I β
  | .done a, f => f a
  | .ask r next, f => .ask r fun x => bind (next x) f

instance : Monad (Program I) where
  pure := .done
  bind := bind

def request (r : I.Request) : Program I (I.Answer r) := .ask r .done

@[simp] theorem done_bind (a : α) (f : α → Program I β) : bind (.done a) f = f a := rfl

@[simp] theorem ask_bind (r : I.Request) (next : I.Answer r → Program I α) (f : α → Program I β) :
    bind (.ask r next) f = .ask r fun x => bind (next x) f := rfl

@[simp] theorem pure_eq_done (a : α) : (pure a : Program I α) = .done a := rfl

@[simp] theorem bind_eq (p : Program I α) (f : α → Program I β) : p >>= f = bind p f := rfl

theorem bind_done (p : Program I α) : bind p .done = p := by
  induction p with
  | done a => rfl
  | ask r next ih => simp [ih]

theorem bind_assoc (p : Program I α) (f : α → Program I β) (g : β → Program I γ) :
    bind (bind p f) g = bind p fun a => bind (f a) g := by
  induction p with
  | done a => rfl
  | ask r next ih => simp [ih]

end Program
end ChatCommands
