import Mathlib
import ChatCommands.Argument.Binding
import ChatCommands.Proofs.NearestNumber
import ChatCommands.Proofs.NumeralText

set_option autoImplicit false

/-!
# Which tokens are numbers

A token without blanks is a number if it is the text of a numeral and the number
that this denotes is within the range of binary64. Then the nearest finite number
is read. Numerals far outside the range are recognized by how many digits they
have, and for them the powers of ten need not be formed.
-/
namespace ChatCommands

namespace Decimal
open Binary64
variable {d : Decimal}

theorem abs_toRat (d : Decimal) : |d.toRat| = d.digits * 10 ^ d.exponent := by
  rw [toRat, abs_signed, abs_of_nonneg (by positivity)]

theorem size_bounds {n : Nat} (some : n ≠ 0) :
    (10 : ℚ) ^ ((size n : Int) - 1) ≤ n ∧ (n : ℚ) < 10 ^ (size n : Int) := by
  have digits : size n = (Nat.toDigits 10 n).length := if_neg some
  obtain ⟨k, succ⟩ : ∃ k, size n = k + 1 :=
    Nat.exists_eq_succ_of_ne_zero (digits ▸ Nat.length_toDigits_pos.ne')
  have upper : n < 10 ^ size n :=
    (Nat.length_toDigits_le_iff (by decide) (succ ▸ k.succ_pos)).1 digits.ge
  have lower : 10 ^ k ≤ n := by
    by_cases single : k = 0
    · rw [single]
      exact Nat.one_le_iff_ne_zero.2 some
    · refine not_lt.1 fun less => ?_
      have := (Nat.length_toDigits_le_iff (by decide) (Nat.pos_of_ne_zero single)).2 less
      omega
  rw [succ, Nat.cast_succ, add_sub_cancel_right, zpow_natCast]
  exact ⟨mod_cast lower, mod_cast succ ▸ upper⟩

theorem abs_toRat_bounds (some : d.digits ≠ 0) :
    (10 : ℚ) ^ (size d.digits + d.exponent - 1) ≤ |d.toRat| ∧
      |d.toRat| < 10 ^ (size d.digits + d.exponent) := by
  obtain ⟨lower, upper⟩ := size_bounds some
  have ten : (10 : ℚ) ≠ 0 := by norm_num
  rw [abs_toRat, add_sub_right_comm, zpow_add₀ ten, zpow_add₀ ten]
  exact ⟨by gcongr, by gcongr⟩

theorem ratio_eq (d : Decimal) : ((d.digits * Nat.pow 10 d.exponent.toNat : Nat) /
    (Nat.pow 10 (-d.exponent).toNat : Nat) : ℚ) = d.digits * 10 ^ d.exponent := by
  rw [zpow_eq_div (by norm_num), Nat.pow_eq, Nat.pow_eq]
  push_cast
  ring

theorem tiny : (10 : ℚ) ^ (-330 : ℤ) < 2 ^ (leastExponent - 1) := by
  have powers : (2 : ℚ) ^ 1075 < 10 ^ 330 := by
    have : ((2 ^ 1075 : Nat) : ℚ) < (10 ^ 330 : Nat) := Nat.cast_lt.2 (by decide +kernel)
    rwa [Nat.cast_pow, Nat.cast_pow] at this
  have least : leastExponent - 1 = -(1075 : Nat) := rfl
  rw [least, zpow_neg, zpow_neg, zpow_natCast]
  exact inv_strictAnti₀ (by positivity) powers

theorem abs_toRat_of_small (small : d.digits = 0 ∨ size d.digits + d.exponent < -330) :
    |d.toRat| < 2 ^ (leastExponent - 1) := by
  refine lt_of_le_of_lt ?_ tiny
  by_cases none : d.digits = 0
  · rw [abs_toRat, none, Nat.cast_zero, zero_mul]
    positivity
  · refine (abs_toRat_bounds none).2.le.trans (zpow_le_zpow_right₀ (by norm_num) ?_)
    exact (small.resolve_left none).le

theorem limit_le_abs_toRat (some : d.digits ≠ 0) (large : size d.digits + d.exponent > 310) :
    (limit : ℚ) ≤ |d.toRat| := by
  calc (limit : ℚ) ≤ (10 ^ 310 : Nat) := Nat.cast_le.2 (by decide +kernel)
    _ = 10 ^ (310 : ℤ) := by rw [Nat.cast_pow]; rfl
    _ ≤ 10 ^ (size d.digits + d.exponent - 1) := zpow_le_zpow_right₀ (by norm_num) (by omega)
    _ ≤ |d.toRat| := (abs_toRat_bounds some).1

theorem scale_pos (d : Decimal) : 0 < Nat.pow 10 (-d.exponent).toNat := Nat.pow_pos (by decide)

theorem abs_toRat_lt_iff (d : Decimal) (bound : Nat) : |d.toRat| < bound ↔
    d.digits * Nat.pow 10 d.exponent.toNat < bound * Nat.pow 10 (-d.exponent).toNat := by
  rw [abs_toRat, ← ratio_eq, div_lt_iff₀ (Nat.cast_pos.2 d.scale_pos), ← Nat.cast_mul, Nat.cast_lt]

theorem toBinary64_of_lt (below : |d.toRat| < limit) :
    ∃ x, d.toBinary64 = .finite x ∧ RoundsTo d.toRat x := by
  unfold toBinary64
  dsimp only
  split
  case isTrue small => exact ⟨_, rfl, roundsTo_zero (abs_toRat_of_small small)⟩
  case isFalse other =>
    have some : d.digits ≠ 0 := fun none => other (.inl none)
    rw [if_neg fun large => absurd (limit_le_abs_toRat some large) (not_le.2 below)]
    rw [abs_toRat, ← ratio_eq] at below
    have := ofRatio_of_lt d.negative d.scale_pos below
    rwa [ratio_eq] at this

theorem toBinary64_of_limit_le (beyond : (limit : ℚ) ≤ |d.toRat|) : d.toBinary64 = .infinite d.negative := by
  unfold toBinary64
  dsimp only
  split
  case isTrue small =>
    have below := abs_toRat_of_small small
    have unit : (2 : ℚ) ^ (leastExponent - 1) ≤ 1 := zpow_le_one_of_nonpos₀ one_le_two (by decide)
    have whole : ((1 : Nat) : ℚ) ≤ limit := Nat.cast_le.2 (by decide +kernel)
    rw [Nat.cast_one] at whole
    linarith
  case isFalse other =>
    split
    · rfl
    · rw [abs_toRat, ← ratio_eq] at beyond
      exact ofRatio_of_limit_le d.negative d.scale_pos beyond

end Decimal

namespace Argument
variable {σ : Type} {host : Host σ} {message : Option Message} {slot : Slot} {token : String}

theorem readNumber_of_denotes {q : ℚ} (blankless : ∀ c ∈ token.toList, Text.isBlank c = false)
    (number : Decimal.Denotes token.toList q) (below : |q| < Binary64.limit) :
    ∃ x, readNumber token = .ok (.finite x) ∧ Binary64.RoundsTo q x := by
  obtain ⟨d, read, rfl⟩ := Decimal.denotes_iff.1 number
  obtain ⟨x, finite, rounds⟩ := Decimal.toBinary64_of_lt below
  refine ⟨x, ?_, rounds⟩
  simp only [readNumber, Decimal.read?_of_blankless blankless, read, Option.bind_some, finite,
    Binary64.finite?]

theorem readNumber_of_no_number (blankless : ∀ c ∈ token.toList, Text.isBlank c = false)
    (none : ¬ ∃ q, Decimal.Denotes token.toList q ∧ |q| < Binary64.limit) :
    readNumber token = .error (.unreadable token .number) := by
  rw [readNumber, Decimal.read?_of_blankless blankless]
  cases read : Decimal.readChars? token.toList with
  | none => rfl
  | some d =>
    have beyond : (Binary64.limit : ℚ) ≤ |d.toRat| :=
      not_lt.1 fun below => none ⟨_, Decimal.denotes_iff.2 ⟨d, read, rfl⟩, below⟩
    rw [Option.bind_some, Decimal.toBinary64_of_limit_le beyond]
    rfl

/-- A token without blanks is a number exactly if it is the text of a numeral and what this denotes is
within the range. The number that is read is one to which that is rounded. Every other token is refused as
none that can be converted. -/
theorem numbers_exact (host : Host σ) (message : Option Message) (slot : Slot) (token : String)
    (blankless : ∀ c ∈ token.toList, Text.isBlank c = false) :
    ((∃ v, ArgumentParser.number.run host message slot token = .done (.ok v)) ↔
      ∃ q, Decimal.Denotes token.toList q ∧ |q| < 2 ^ 1024 - 2 ^ 970) ∧
    (∀ v, ArgumentParser.number.run host message slot token = .done (.ok v) →
      ∃ x q, v = .float (.finite x) ∧ Decimal.Denotes token.toList q ∧ Binary64.RoundsTo q x) ∧
    ((¬ ∃ q, Decimal.Denotes token.toList q ∧ |q| < 2 ^ 1024 - 2 ^ 970) →
      ∃ f, ArgumentParser.number.run host message slot token = .done (.error f) ∧
        f.label = "ArgumentConversionError") := by
  rw [← Binary64.limit_eq, ArgumentParser.run]
  by_cases number : ∃ q, Decimal.Denotes token.toList q ∧ |q| < Binary64.limit
  · obtain ⟨q, denotes, below⟩ := number
    obtain ⟨x, read, rounds⟩ := readNumber_of_denotes blankless denotes below
    rw [read]
    refine ⟨iff_of_true ⟨_, rfl⟩ ⟨q, denotes, below⟩, ?_, fun none => absurd ⟨q, denotes, below⟩ none⟩
    rintro v ⟨⟩
    exact ⟨x, q, rfl, denotes, rounds⟩
  · rw [readNumber_of_no_number blankless number]
    refine ⟨iff_of_false ?_ number, ?_, fun _ => ⟨_, rfl, rfl⟩⟩
    · rintro ⟨v, ⟨⟩⟩
    · rintro v ⟨⟩

/-- Of the numerals with seventeen digits this is the greatest that is within the range. -/
theorem greatestNumeral_read :
    (∃ x q, ArgumentParser.number.run (Host.silent : Host Unit) none default "17976931348623158e292" =
        .done (.ok (.float (.finite x))) ∧ Decimal.Denotes "17976931348623158e292".toList q ∧
        Binary64.RoundsTo q x) ∧
    ∃ f, ArgumentParser.number.run (Host.silent : Host Unit) none default "17976931348623159e292" =
      .done (.error f) ∧ f.label = "ArgumentConversionError" := by
  have blankless (token : String) (h : (token.toList.all fun c => !Text.isBlank c) = true) :
      ∀ c ∈ token.toList, Text.isBlank c = false := by simpa using h
  obtain ⟨accepted, value, -⟩ := numbers_exact (Host.silent : Host Unit) none default
    "17976931348623158e292" (blankless _ (by decide +kernel))
  obtain ⟨-, -, refused⟩ := numbers_exact (Host.silent : Host Unit) none default
    "17976931348623159e292" (blankless _ (by decide +kernel))
  constructor
  · have read : Decimal.readChars? "17976931348623158e292".toList = some ⟨false, 17976931348623158, 292⟩ := by
      decide +kernel
    have below := (Decimal.abs_toRat_lt_iff ⟨false, 17976931348623158, 292⟩ Binary64.limit).2 (by decide +kernel)
    rw [Binary64.limit_eq] at below
    obtain ⟨v, parsed⟩ := accepted.2 ⟨_, Decimal.denotes_iff.2 ⟨_, read, rfl⟩, below⟩
    obtain ⟨x, q, rfl, denotes, rounds⟩ := value v parsed
    exact ⟨x, q, parsed, denotes, rounds⟩
  · apply refused
    rintro ⟨q, denotes, below⟩
    obtain ⟨d, read, rfl⟩ := Decimal.denotes_iff.1 denotes
    have other : Decimal.readChars? "17976931348623159e292".toList = some ⟨false, 17976931348623159, 292⟩ := by
      decide +kernel
    obtain rfl := Option.some.inj (other.symm.trans read)
    rw [← Binary64.limit_eq, Decimal.abs_toRat_lt_iff] at below
    exact absurd below (by decide +kernel)

end Argument
end ChatCommands
