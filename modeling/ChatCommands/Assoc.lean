set_option autoImplicit false

/-!
# Ordered dictionaries

A dictionary from texts that keeps its keys in the order in which they came in.
Putting a value under a key that is there replaces the value in its place.
-/
namespace ChatCommands

abbrev Assoc (α : Type) := List (String × α)

namespace Assoc
variable {α : Type}

def find? (key : String) : Assoc α → Option α
  | [] => none
  | (k, v) :: rest => if k = key then some v else find? key rest

def put (key : String) (value : α) : Assoc α → Assoc α
  | [] => [(key, value)]
  | (k, v) :: rest => if k = key then (key, value) :: rest else (k, v) :: put key value rest

def erase (key : String) : Assoc α → Assoc α
  | [] => []
  | (k, v) :: rest => if k = key then erase key rest else (k, v) :: erase key rest

def keys (d : Assoc α) : List String := d.map (·.1)

def ofList (entries : List (String × α)) : Assoc α := entries.foldl (fun d e => d.put e.1 e.2) []

def putAll (d e : Assoc α) : Assoc α := e.foldl (fun d e => d.put e.1 e.2) d

theorem find?_put_self (d : Assoc α) (key : String) (value : α) :
    (d.put key value).find? key = some value := by
  induction d with
  | nil => simp [put, find?]
  | cons e rest ih => by_cases h : e.1 = key <;> simp [put, find?, h, ih]

theorem find?_put_of_ne (d : Assoc α) {key other : String} (h : other ≠ key) (value : α) :
    (d.put key value).find? other = d.find? other := by
  induction d with
  | nil => simp [put, find?, Ne.symm h]
  | cons e rest ih => by_cases hk : e.1 = key <;> grind [put, find?]

theorem find?_erase_self (d : Assoc α) (key : String) : (d.erase key).find? key = none := by
  induction d with
  | nil => rfl
  | cons e rest ih => by_cases h : e.1 = key <;> simp [erase, find?, h, ih]

theorem find?_erase_of_ne (d : Assoc α) {key other : String} (h : other ≠ key) :
    (d.erase key).find? other = d.find? other := by
  induction d with
  | nil => rfl
  | cons e rest ih => by_cases hk : e.1 = key <;> grind [erase, find?]

theorem put_put (d : Assoc α) (key : String) (v w : α) : (d.put key v).put key w = d.put key w := by
  induction d with
  | nil => simp [put]
  | cons e rest ih => by_cases h : e.1 = key <;> simp [put, h, ih]

theorem put_of_find? {d : Assoc α} {key : String} {v : α} (h : d.find? key = some v) :
    d.put key v = d := by
  induction d with
  | nil => cases h
  | cons e rest ih =>
    obtain ⟨k, w⟩ := e
    by_cases hk : k = key
    · simp only [find?, hk, if_true, Option.some.injEq] at h
      simp [put, hk, h]
    · simp only [find?, hk, if_false] at h
      simp [put, hk, ih h]

theorem erase_put {d : Assoc α} {key : String} (h : d.find? key = none) (v : α) :
    (d.put key v).erase key = d := by
  induction d with
  | nil => simp [put, erase]
  | cons e rest ih =>
    by_cases hk : e.1 = key
    · simp [find?, hk] at h
    · simp only [find?, hk, if_false] at h
      simp [put, erase, hk, ih h]

theorem keys_put (d : Assoc α) (key : String) (value : α) :
    (d.put key value).keys = if key ∈ d.keys then d.keys else d.keys ++ [key] := by
  induction d with
  | nil => simp [put, keys]
  | cons e d ih =>
    unfold keys at ih
    by_cases h : e.1 = key
    · simp [put, keys, h]
    · by_cases hk : key ∈ d.map (·.1)
      · simp [put, keys, h, ih, hk]
      · simp [put, keys, h, ih, hk, Ne.symm h]

theorem put_of_notMem {d : Assoc α} {key : String} (h : key ∉ d.keys) (value : α) :
    d.put key value = d ++ [(key, value)] := by
  induction d with
  | nil => rfl
  | cons e rest ih =>
    have other : e.1 ≠ key := fun same => h (by simp [keys, same])
    rw [put, if_neg other, ih fun mem => h (List.mem_cons_of_mem _ mem), List.cons_append]

end Assoc
end ChatCommands
