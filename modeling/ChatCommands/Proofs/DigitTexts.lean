import Mathlib
import ChatCommands.Argument.Reading
import ChatCommands.Number.Written

set_option autoImplicit false

/-!
# Signs, digits and line feeds

A text of digits has its value in base ten, whatever scripts its digits are from.
Those of ASCII are the ones in which numbers are written, so that what is written
is read back. A sign before digits and a line feed after them can be told from
the digits.
-/
namespace ChatCommands

namespace Text
variable {c : Char} {ds : List Char}

/-- Digits of any script, at least one. -/
def IsDigits (ds : List Char) : Prop := ds ≠ [] ∧ ∀ c ∈ ds, isDigit c = true

/-- A digit is as far from the zero of its script as its value says. -/
theorem digitValue?_eq_some_iff {v : Nat} :
    digitValue? c = some v ↔ v < 10 ∧ ∃ first ∈ zeros, c.toNat = first + v := by
  -- no two scripts share a digit, so that the first zero that is found is the only one
  have apart : zeros.Pairwise fun a b => a + 10 ≤ b := by decide
  unfold digitValue?
  constructor
  · intro h
    obtain ⟨first, found, rfl⟩ := Option.map_eq_some_iff.1 h
    have inside := List.find?_some found
    simp only [Bool.and_eq_true, decide_eq_true_eq] at inside
    exact ⟨by omega, first, List.mem_of_find?_eq_some found, by omega⟩
  · rintro ⟨small, first, listed, place⟩
    have found : zeros.find? (fun z => decide (z ≤ c.toNat) && decide (c.toNat < z + 10)) = some first := by
      obtain ⟨before, after, split⟩ := List.append_of_mem listed
      rw [split] at apart
      refine List.find?_eq_some_iff_append.2 ⟨by simp [place, small], before, after, split, ?_⟩
      intro other hother
      have := (List.pairwise_append.1 apart).2.2 other hother first List.mem_cons_self
      simp only [Bool.not_eq_true', Bool.and_eq_false_iff, decide_eq_false_iff_not]
      omega
    rw [found]
    simp [place]

theorem isDigit_ascii_iff : c.isDigit = true ↔ 0x30 ≤ c.toNat ∧ c.toNat ≤ 0x39 := Char.isDigit_iff_toNat

theorem isDigit_eq (h : c.toNat < 0x660) : isDigit c = c.isDigit := by
  -- the zero of the second script is 0x660
  have behind : ∀ first ∈ zeros, first = 0x30 ∨ 0x660 ≤ first := by decide
  rw [Bool.eq_iff_iff, isDigit_ascii_iff, isDigit, Option.isSome_iff_exists]
  simp only [digitValue?_eq_some_iff]
  constructor
  · rintro ⟨v, small, first, listed, place⟩
    have := behind first listed
    omega
  · rintro ⟨low, high⟩
    exact ⟨c.toNat - 0x30, by omega, 0x30, by decide, by omega⟩

theorem digitValue?_of_ascii (h : c.isDigit = true) : digitValue? c = some (c.toNat - 0x30) := by
  obtain ⟨low, high⟩ := isDigit_ascii_iff.1 h
  exact digitValue?_eq_some_iff.2 ⟨by omega, 0x30, by decide, by omega⟩

theorem isDigit_of_ascii (h : c.isDigit = true) : isDigit c = true := by
  simp [isDigit, digitValue?_of_ascii h]

theorem digitsValue_eq_ofDigits (ds : List Char) :
    digitsValue ds = Nat.ofDigits 10 (ds.reverse.map digitValue) := by
  induction ds using List.reverseRecOn with
  | nil => rfl
  | append_singleton ds c ih =>
    rw [digitsValue_append_singleton, List.reverse_append, List.reverse_singleton, List.singleton_append,
      List.map_cons, Nat.ofDigits_cons, ih, Nat.add_comm]

theorem digitsValue_of_ascii (h : ∀ c ∈ ds, c.isDigit = true) :
    digitsValue ds = Nat.ofDigitChars 10 ds 0 := by
  rw [digitsValue, Nat.ofDigitChars_eq_foldl]
  refine List.foldl_ext _ _ 0 fun n c hc => ?_
  simp [digitValue, digitValue?_of_ascii (h c hc)]

theorem digitsValue_append (as bs : List Char) :
    digitsValue (as ++ bs) = digitsValue as * 10 ^ bs.length + digitsValue bs := by
  simp only [digitsValue_eq_ofDigits, List.reverse_append, List.map_append, Nat.ofDigits_append,
    List.length_map, List.length_reverse]
  ring

theorem digitValue_lt (c : Char) : digitValue c < 10 := by
  unfold digitValue
  cases h : digitValue? c with
  | none => decide
  | some v => exact (digitValue?_eq_some_iff.1 h).1

theorem digitsValue_lt (ds : List Char) : digitsValue ds < 10 ^ ds.length := by
  rw [digitsValue_eq_ofDigits]
  have small : ∀ d ∈ ds.reverse.map digitValue, d < 10 := List.forall_mem_map.2 fun c _ => digitValue_lt c
  simpa using Nat.ofDigits_lt_base_pow_length (by decide) small

theorem digitChar_digitValue (h : c.isDigit = true) : (digitValue c).digitChar = c := by
  obtain ⟨low, high⟩ := isDigit_ascii_iff.1 h
  rw [digitValue, digitValue?_of_ascii h, Option.getD_some]
  apply Char.toNat_inj.1
  rw [Nat.toNat_digitChar_of_lt_ten (by omega)]
  omega

theorem eq_of_digitsValue_eq {es : List Char} (hd : ∀ c ∈ ds, c.isDigit = true)
    (he : ∀ c ∈ es, c.isDigit = true) (length : ds.length = es.length)
    (same : digitsValue ds = digitsValue es) : ds = es := by
  have small (cs : List Char) : ∀ d ∈ cs.reverse.map digitValue, d < 10 :=
    List.forall_mem_map.2 fun c _ => digitValue_lt c
  -- in ASCII the value of a digit tells which character it is
  have back {cs : List Char} (digits : ∀ c ∈ cs, c.isDigit = true) :
      (cs.map digitValue).map Nat.digitChar = cs := by
    rw [List.map_map]
    exact (List.map_congr_left fun c hc => digitChar_digitValue (digits c hc)).trans (List.map_id' cs)
  rw [digitsValue_eq_ofDigits, digitsValue_eq_ofDigits] at same
  have values := Nat.ofDigits_inj_of_len_eq (by decide) (by simpa using length) (small ds) (small es) same
  rw [List.map_reverse, List.map_reverse, List.reverse_inj] at values
  rw [← back hd, values, back he]

theorem isDigit_of_mem_toDigits {n : Nat} (h : c ∈ Nat.toDigits 10 n) : c.isDigit = true :=
  Nat.isDigit_of_mem_toDigits (by decide) (by decide) h

theorem isDigits_toDigits (n : Nat) : IsDigits (Nat.toDigits 10 n) :=
  ⟨Nat.toDigits_ne_nil, fun _ hc => isDigit_of_ascii (isDigit_of_mem_toDigits hc)⟩

theorem digitsValue_toDigits (n : Nat) : digitsValue (Nat.toDigits 10 n) = n := by
  rw [digitsValue_of_ascii fun c hc => isDigit_of_mem_toDigits hc, Nat.ofDigitChars_ten_toDigits]

theorem IsDigits.head_isDigit (h : IsDigits ds) (rest : List Char) :
    ∀ c ∈ (ds ++ rest).head?, isDigit c = true := by
  obtain ⟨c, ds, rfl⟩ := List.exists_cons_of_ne_nil h.1
  intro d hd
  obtain rfl : c = d := by simpa using hd
  exact h.2 c List.mem_cons_self

theorem IsDigits.getLast_isDigit (h : IsDigits ds) (before : List Char) :
    ∀ c ∈ (before ++ ds).getLast?, isDigit c = true := by
  intro c hc
  rw [List.getLast?_append_of_ne_nil _ h.1] at hc
  exact h.2 c (List.mem_of_getLast? hc)

end Text

namespace Decimal
open Text

/-- A sign as it may be written: a minus, a plus or nothing. -/
inductive SignText : Bool → List Char → Prop where
  | minus : SignText true ['-']
  | plus : SignText false ['+']
  | none : SignText false []

theorem exists_sign (cs : List Char) :
    ∃ sign, SignText (readSign cs).1 sign ∧ cs = sign ++ (readSign cs).2 := by
  unfold readSign
  split
  · exact ⟨_, .minus, rfl⟩
  · exact ⟨_, .plus, rfl⟩
  · exact ⟨_, .none, rfl⟩

theorem readSign_append {negative : Bool} {sign rest : List Char} (signed : SignText negative sign)
    (unsigned : ∀ c ∈ rest.head?, c ≠ '-' ∧ c ≠ '+') : readSign (sign ++ rest) = (negative, rest) := by
  cases signed with
  | minus => rfl
  | plus => rfl
  | none =>
    cases rest with
    | nil => rfl
    | cons c rest =>
      obtain ⟨notMinus, notPlus⟩ := unsigned c rfl
      simp [readSign, notMinus, notPlus]

theorem ne_sign_of_isDigit {c : Char} (h : isDigit c = true) : c ≠ '-' ∧ c ≠ '+' := by
  constructor <;> rintro rfl <;> simp [isDigit_eq] at h

theorem readSign_append_digits {negative : Bool} {sign ds : List Char} (signed : SignText negative sign)
    (digits : IsDigits ds) : readSign (sign ++ ds) = (negative, ds) :=
  readSign_append signed fun c hc => ne_sign_of_isDigit (digits.2 c (List.mem_of_mem_head? hc))

end Decimal

namespace Argument
open Text

/-- Nothing, or one line feed. -/
def LineFeed (tail : List Char) : Prop := tail = [] ∨ tail = ['\n']

theorem exists_lineFeed (cs : List Char) : ∃ tail, LineFeed tail ∧ cs = chopLineFeed cs ++ tail := by
  unfold chopLineFeed
  split
  case isTrue last => exact ⟨['\n'], .inr rfl, (List.dropLast_append_getLast? _ last).symm⟩
  case isFalse => exact ⟨[], .inl rfl, (List.append_nil cs).symm⟩

theorem chopLineFeed_append {cs tail : List Char} (h : LineFeed tail) (last : cs.getLast? ≠ some '\n') :
    chopLineFeed (cs ++ tail) = cs := by
  rcases h with rfl | rfl
  · simp [chopLineFeed, last]
  · simp [chopLineFeed]

end Argument
end ChatCommands
