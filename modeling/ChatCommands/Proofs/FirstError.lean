import Mathlib

set_option autoImplicit false

/-!
# The first error

What goes through a list and may fail at each element succeeds if it does so at
every element, and otherwise fails as it does at the first at which it fails.
-/
namespace ChatCommands
variable {ε ε' α β : Type}

theorem bind_eq_ok_iff {x : Except ε α} {f : α → Except ε β} {b : β} :
    (x >>= f) = .ok b ↔ ∃ a, x = .ok a ∧ f a = .ok b := by
  cases x with
  | error e => exact ⟨nofun, nofun⟩
  | ok a => exact ⟨fun h => ⟨a, rfl, h⟩, by rintro ⟨_, ⟨⟩, h⟩; exact h⟩

theorem bind_eq_error_iff {x : Except ε α} {f : α → Except ε β} {e : ε} :
    (x >>= f) = .error e ↔ x = .error e ∨ ∃ a, x = .ok a ∧ f a = .error e := by
  cases x with
  | error e' =>
    constructor
    · intro h
      cases h
      exact .inl rfl
    · rintro (⟨⟨⟩⟩ | ⟨_, ⟨⟩, -⟩)
      rfl
  | ok a => exact ⟨fun h => .inr ⟨a, rfl, h⟩, by rintro (⟨⟨⟩⟩ | ⟨_, ⟨⟩, h⟩); exact h⟩

theorem mapError_eq_ok_iff {x : Except ε α} {g : ε → ε'} {a : α} :
    x.mapError g = .ok a ↔ x = .ok a := by
  cases x <;> simp [Except.mapError]

theorem mapError_eq_error_iff {x : Except ε α} {g : ε → ε'} {e : ε'} :
    x.mapError g = .error e ↔ ∃ e', x = .error e' ∧ g e' = e := by
  cases x <;> simp [Except.mapError]

theorem mapM_eq_ok_iff {g : α → Except ε β} {as : List α} {bs : List β} :
    as.mapM g = .ok bs ↔ List.Forall₂ (fun a b => g a = .ok b) as bs := by
  induction as generalizing bs with
  | nil =>
    rw [List.forall₂_nil_left_iff, List.mapM_nil]
    exact ⟨fun h => (Except.ok.inj h).symm, fun h => h ▸ rfl⟩
  | cons a as ih =>
    rw [List.mapM_cons, List.forall₂_cons_left_iff, bind_eq_ok_iff]
    constructor
    · rintro ⟨b, hb, h⟩
      obtain ⟨rest, hrest, h⟩ := bind_eq_ok_iff.1 h
      exact ⟨b, rest, hb, ih.1 hrest, (Except.ok.inj h).symm⟩
    · rintro ⟨b, rest, hb, hrest, rfl⟩
      exact ⟨b, hb, bind_eq_ok_iff.2 ⟨rest, ih.2 hrest, rfl⟩⟩

theorem mapM_eq_error_iff {g : α → Except ε β} {as : List α} {e : ε} :
    as.mapM g = .error e ↔ ∃ before a after, as = before ++ a :: after ∧
      (∀ b ∈ before, ∃ y, g b = .ok y) ∧ g a = .error e := by
  induction as with
  | nil => simp [pure, Except.pure]
  | cons a as ih =>
    rw [List.mapM_cons, bind_eq_error_iff]
    constructor
    · rintro (wrong | ⟨b, hb, h⟩)
      · exact ⟨[], a, as, rfl, by simp, wrong⟩
      · rcases bind_eq_error_iff.1 h with later | ⟨_, -, ⟨⟩⟩
        obtain ⟨before, a', after, rfl, good, wrong⟩ := ih.1 later
        exact ⟨a :: before, a', after, rfl, List.forall_mem_cons.2 ⟨⟨b, hb⟩, good⟩, wrong⟩
    · rintro ⟨_ | ⟨b, before⟩, a', after, split, good, wrong⟩
      · obtain ⟨rfl, rfl⟩ := List.cons.inj split
        exact .inl wrong
      · obtain ⟨rfl, rfl⟩ := List.cons.inj split
        obtain ⟨⟨y, hy⟩, good⟩ := List.forall_mem_cons.1 good
        exact .inr ⟨y, hy, bind_eq_error_iff.2 (.inl (ih.2 ⟨before, a', after, rfl, good, wrong⟩))⟩

theorem mapM_map_ok {f : β → α} {g : α → Except ε β} {bs : List β} (h : ∀ b ∈ bs, g (f b) = .ok b) :
    (bs.map f).mapM g = .ok bs := by
  rw [mapM_eq_ok_iff, List.forall₂_map_left_iff]
  exact List.forall₂_same.2 h

theorem exists_of_mapM_ok {g : α → Except ε β} {as : List α} {bs : List β} (h : as.mapM g = .ok bs) :
    ∀ b ∈ bs, ∃ a ∈ as, g a = .ok b := by
  have paired := mapM_eq_ok_iff.1 h
  clear h
  induction paired with
  | nil => simp
  | @cons a b as bs hab _ ih =>
    refine List.forall_mem_cons.2 ⟨⟨a, List.mem_cons_self, hab⟩, fun c hc => ?_⟩
    obtain ⟨a', mem, ha'⟩ := ih c hc
    exact ⟨a', List.mem_cons_of_mem _ mem, ha'⟩

section Checks
variable {check : α → Except ε Unit} {all : List α → Except ε Unit}

/-- A check of a list, element by element. -/
theorem checks_eq_mapM (nil : all [] = .ok ())
    (cons : ∀ a as, all (a :: as) = (check a >>= fun _ => all as)) (as : List α) :
    all as = (as.mapM check).map fun _ => () := by
  induction as with
  | nil => exact nil
  | cons a as ih =>
    rw [cons, List.mapM_cons, ih]
    cases check a with
    | error e => rfl
    | ok u => cases as.mapM check <;> rfl

theorem checks_eq_ok_iff (nil : all [] = .ok ())
    (cons : ∀ a as, all (a :: as) = (check a >>= fun _ => all as)) {as : List α} :
    all as = .ok () ↔ ∀ a ∈ as, check a = .ok () := by
  induction as with
  | nil => simp [nil]
  | cons a as ih => simp [cons, bind_eq_ok_iff, ih, Unique.exists_iff]

theorem checks_eq_error_iff (nil : all [] = .ok ())
    (cons : ∀ a as, all (a :: as) = (check a >>= fun _ => all as)) {as : List α} {e : ε} :
    all as = .error e ↔ ∃ before a after, as = before ++ a :: after ∧
      (∀ b ∈ before, check b = .ok ()) ∧ check a = .error e := by
  have same : all as = .error e ↔ as.mapM check = .error e := by
    rw [checks_eq_mapM nil cons]
    cases as.mapM check <;> simp [Except.map]
  rw [same, mapM_eq_error_iff]
  simp [Unique.exists_iff]

end Checks
end ChatCommands
