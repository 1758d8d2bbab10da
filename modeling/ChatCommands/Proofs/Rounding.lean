import Mathlib
import ChatCommands.Number.Binary64

set_option autoImplicit false

/-!
# Rounding to binary64

Rounding never turns the order of two positive quotients around, and unless a
quotient is very small it adds at most the 2 ^ 53-rd part of it. So a difference
that is not below a bound after rounding is still not below it when something
smaller has been subtracted.
-/
namespace ChatCommands

section Nearest

/-- The result is the greatest integer that is not above the quotient or the next one. -/
theorem roundDiv_cases (num den : Nat) :
    roundDiv num den = num / den ∧ 2 * (num % den) ≤ den ∧ (2 * (num % den) = den → Even (num / den)) ∨
      roundDiv num den = num / den + 1 ∧ den ≤ 2 * (num % den) ∧
        (2 * (num % den) = den → Even (num / den + 1)) := by
  unfold roundDiv
  dsimp only
  split
  case isTrue up =>
    simp only [gt_iff_lt, Bool.or_eq_true, decide_eq_true_eq, Bool.and_eq_true, beq_iff_eq] at up
    refine .inr ⟨rfl, by omega, fun half => ?_⟩
    have odd : num / den % 2 = 1 := (up.resolve_left (by omega)).2
    exact Nat.even_iff.2 (by omega)
  case isFalse down =>
    simp only [gt_iff_lt, Bool.or_eq_true, decide_eq_true_eq, Bool.and_eq_true, beq_iff_eq, not_or,
      not_and] at down
    refine .inl ⟨rfl, by omega, fun half => ?_⟩
    have := down.2 half
    exact Nat.even_iff.2 (by omega)

theorem roundDiv_le (num den : Nat) : roundDiv num den ≤ num / den + 1 := by
  obtain ⟨same, -⟩ | ⟨same, -⟩ := roundDiv_cases num den <;> omega

theorem div_le_roundDiv (num den : Nat) : num / den ≤ roundDiv num den := by
  obtain ⟨same, -⟩ | ⟨same, -⟩ := roundDiv_cases num den <;> omega

theorem roundDiv_error (num den : Nat) : 2 * (roundDiv num den * den) ≤ 2 * num + den := by
  have parts := Nat.div_add_mod' num den
  obtain ⟨same, -⟩ | ⟨same, half, -⟩ := roundDiv_cases num den
  · rw [same]
    omega
  · rw [same, Nat.add_one_mul (num / den)]
    omega

theorem div_le_div_of_cross {n₁ d₁ n₂ d₂ : Nat} (h₁ : 0 < d₁) (h₂ : 0 < d₂)
    (h : n₁ * d₂ ≤ n₂ * d₁) : n₁ / d₁ ≤ n₂ / d₂ := by
  rw [Nat.le_div_iff_mul_le h₂]
  refine Nat.le_of_mul_le_mul_right ?_ h₁
  calc n₁ / d₁ * d₂ * d₁ = n₁ / d₁ * d₁ * d₂ := by ring
    _ ≤ n₁ * d₂ := Nat.mul_le_mul_right _ (Nat.div_mul_le_self _ _)
    _ ≤ n₂ * d₁ := h

theorem roundDiv_mono {n₁ d₁ n₂ d₂ : Nat} (h₁ : 0 < d₁) (h₂ : 0 < d₂) (h : n₁ * d₂ ≤ n₂ * d₁) :
    roundDiv n₁ d₁ ≤ roundDiv n₂ d₂ := by
  rcases (div_le_div_of_cross h₁ h₂ h).lt_or_eq with less | same
  · exact (roundDiv_le n₁ d₁).trans (Nat.succ_le_of_lt less |>.trans (div_le_roundDiv n₂ d₂))
  · have parts₁ := Nat.div_add_mod n₁ d₁
    have parts₂ := Nat.div_add_mod n₂ d₂
    -- the whole parts agree, so the larger quotient has the larger remainder
    have rests : n₁ % d₁ * d₂ ≤ n₂ % d₂ * d₁ := by
      rw [← parts₁, ← parts₂, same] at h
      nlinarith
    unfold roundDiv
    dsimp only
    rw [same]
    split
    case isTrue up =>
      simp only [gt_iff_lt, Bool.or_eq_true, decide_eq_true_eq, Bool.and_eq_true, beq_iff_eq] at up
      rw [if_pos]
      simp only [gt_iff_lt, Bool.or_eq_true, decide_eq_true_eq, Bool.and_eq_true, beq_iff_eq]
      rcases up with more | ⟨half, odd⟩
      · left
        by_contra least
        nlinarith
      · by_cases more : d₂ < 2 * (n₂ % d₂)
        · exact .inl more
        · refine .inr ⟨?_, odd⟩
          nlinarith
    case isFalse => split <;> omega

end Nearest

namespace Binary64

/-- The exponent that a quotient is rounded to, before any carry. -/
def exponentOf (num den : Nat) : Int := max leastExponent (floorLog2 num den - 52)

def significandOf (num den : Nat) : Nat :=
  roundDiv (scaled num den (exponentOf num den)).1 (scaled num den (exponentOf num den)).2

/-- The quotient, rounded to 53 bits. -/
def rounded (num den : Nat) : ℚ := significandOf num den * 2 ^ exponentOf num den

theorem scaled_den_pos {num den : Nat} (hd : 0 < den) (e : Int) : 0 < (scaled num den e).2 :=
  Nat.mul_pos hd (Nat.pow_pos two_pos)

/-- A power with a negative exponent is a quotient of natural powers. -/
theorem zpow_eq_div {b : ℚ} (nonzero : b ≠ 0) (e : Int) : b ^ e = b ^ e.toNat / b ^ (-e).toNat := by
  rw [← zpow_natCast, ← zpow_natCast, ← zpow_sub₀ nonzero, Int.toNat_sub_toNat_neg]

theorem scaled_eq (num den : Nat) (e : Int) (hd : 0 < den) :
    ((scaled num den e).1 : ℚ) = num / den * 2 ^ (-e) * (scaled num den e).2 := by
  have : (den : ℚ) ≠ 0 := by positivity
  simp only [scaled, Nat.pow_eq, Nat.cast_mul, Nat.cast_pow, Nat.cast_ofNat, zpow_eq_div two_ne_zero (-e),
    neg_neg]
  field_simp

theorem scaled_lt_iff {num den : Nat} (hd : 0 < den) (e : Int) (bound : Nat) :
    (scaled num den e).1 < bound * (scaled num den e).2 ↔ (num / den : ℚ) < bound * 2 ^ e := by
  have positive : (0 : ℚ) < (scaled num den e).2 := mod_cast scaled_den_pos hd e
  rw [← Nat.cast_lt (α := ℚ), Nat.cast_mul, scaled_eq num den e hd, zpow_neg,
    mul_lt_mul_iff_left₀ positive, mul_inv_lt_iff₀ (by positivity)]

theorem le_scaled_iff {num den : Nat} (hd : 0 < den) (e : Int) (bound : Nat) :
    bound * (scaled num den e).2 ≤ (scaled num den e).1 ↔ (bound * 2 ^ e : ℚ) ≤ num / den := by
  rw [← not_lt, scaled_lt_iff hd, not_lt]

/-- The logarithm is the greatest power of two that is not above the quotient. -/
theorem floorLog2_spec {num den : Nat} (hn : 0 < num) (hd : 0 < den) :
    (2 : ℚ) ^ floorLog2 num den ≤ num / den ∧ (num / den : ℚ) < 2 ^ (floorLog2 num den + 1) := by
  have numLow : (2 : ℚ) ^ (num.log2 : ℤ) ≤ num := mod_cast Nat.log2_self_le hn.ne'
  have numHigh : (num : ℚ) < 2 ^ ((num.log2 : ℤ) + 1) := mod_cast Nat.lt_log2_self
  have denLow : (2 : ℚ) ^ (den.log2 : ℤ) ≤ den := mod_cast Nat.log2_self_le hd.ne'
  have denHigh : (den : ℚ) < 2 ^ ((den.log2 : ℤ) + 1) := mod_cast Nat.lt_log2_self
  have positive : (0 : ℚ) < den := mod_cast hd
  generalize hk : (num.log2 : ℤ) - den.log2 = k
  have low : (2 : ℚ) ^ (k - 1) ≤ num / den := by
    rw [le_div_iff₀ positive]
    calc (2 : ℚ) ^ (k - 1) * den ≤ 2 ^ (k - 1) * 2 ^ ((den.log2 : ℤ) + 1) := by gcongr
      _ = 2 ^ (num.log2 : ℤ) := by
        rw [← zpow_add₀ two_ne_zero]
        congr 1
        omega
      _ ≤ num := numLow
  have high : (num / den : ℚ) < 2 ^ (k + 1) := by
    rw [div_lt_iff₀ positive]
    calc (num : ℚ) < 2 ^ ((num.log2 : ℤ) + 1) := numHigh
      _ = 2 ^ (k + 1) * 2 ^ (den.log2 : ℤ) := by
        rw [← zpow_add₀ two_ne_zero]
        congr 1
        omega
      _ ≤ 2 ^ (k + 1) * den := by gcongr
  have split : (scaled num den k).1 < 1 * (scaled num den k).2 ↔ _ := scaled_lt_iff hd k 1
  rw [Nat.one_mul, Nat.cast_one, one_mul] at split
  unfold floorLog2
  dsimp only
  rw [hk]
  split
  case isTrue less => exact ⟨low, by simpa using split.1 less⟩
  case isFalse more => exact ⟨not_lt.1 fun less => more (split.2 less), high⟩

theorem lt_of_two_zpow_lt {m n : ℤ} (h : (2 : ℚ) ^ m < 2 ^ n) : m < n :=
  (zpow_lt_zpow_iff_right₀ one_lt_two).1 h

section
variable {num den : Nat}

theorem lt_two_zpow_exponentOf (hn : 0 < num) (hd : 0 < den) :
    (num / den : ℚ) < 2 ^ (exponentOf num den + 53) :=
  (floorLog2_spec hn hd).2.trans_le (zpow_le_zpow_right₀ one_le_two (by unfold exponentOf; omega))

theorem two_zpow_exponentOf_le (hn : 0 < num) (hd : 0 < den)
    (normal : leastExponent < exponentOf num den) :
    (2 : ℚ) ^ (exponentOf num den + 52) ≤ num / den := by
  refine le_trans ?_ (floorLog2_spec hn hd).1
  apply zpow_le_zpow_right₀ one_le_two
  unfold exponentOf at normal ⊢
  omega

theorem significandOf_le (hn : 0 < num) (hd : 0 < den) : significandOf num den ≤ 2 ^ 53 := by
  have small := lt_two_zpow_exponentOf hn hd
  rw [add_comm, zpow_add₀ two_ne_zero] at small
  have scaled_small := (scaled_lt_iff hd (exponentOf num den) (2 ^ 53)).2 (mod_cast small)
  have := Nat.div_lt_of_lt_mul (Nat.mul_comm _ _ ▸ scaled_small)
  exact (roundDiv_le _ _).trans this

theorem le_significandOf (hn : 0 < num) (hd : 0 < den)
    (normal : leastExponent < exponentOf num den) : 2 ^ 52 ≤ significandOf num den := by
  have large := two_zpow_exponentOf_le hn hd normal
  rw [add_comm, zpow_add₀ two_ne_zero] at large
  have scaled_large := (le_scaled_iff hd (exponentOf num den) (2 ^ 52)).2 (mod_cast large)
  have := (Nat.le_div_iff_mul_le (scaled_den_pos hd _)).2 scaled_large
  exact this.trans (div_le_roundDiv _ _)

/-- Rounding adds at most the 2 ^ 53-rd part, unless the result is smaller than 1. -/
theorem rounded_le (hn : 0 < num) (hd : 0 < den) (large : 1 ≤ rounded num den) :
    rounded num den ≤ num / den * (1 + 1 / 2 ^ 53) := by
  have normal : leastExponent < exponentOf num den := by
    by_contra least
    have bound : exponentOf num den ≤ -1074 := not_lt.1 least
    have small : rounded num den ≤ 2 ^ 53 * 2 ^ (-1074 : ℤ) := by
      unfold rounded
      gcongr
      · exact_mod_cast significandOf_le hn hd
      · exact one_le_two
    have less : (2 : ℚ) ^ 53 * 2 ^ (-1074 : ℤ) < 1 := by
      rw [← zpow_natCast, ← zpow_add₀ two_ne_zero]
      exact zpow_lt_one_of_neg₀ one_lt_two (by norm_num)
    linarith
  have close := roundDiv_error (scaled num den (exponentOf num den)).1
    (scaled num den (exponentOf num den)).2
  have positive : (0 : ℚ) < (scaled num den (exponentOf num den)).2 := mod_cast scaled_den_pos hd _
  have exact_close : (2 : ℚ) * significandOf num den ≤
      2 * (num / den * 2 ^ (-exponentOf num den)) + 1 := by
    refine le_of_mul_le_mul_right ?_ positive
    rw [← Nat.cast_le (α := ℚ)] at close
    push_cast at close
    rw [scaled_eq num den _ hd] at close
    unfold significandOf
    linarith
  have unit := two_zpow_exponentOf_le hn hd normal
  have scale : (0 : ℚ) < 2 ^ exponentOf num den := by positivity
  have cancel : (2 : ℚ) ^ (-exponentOf num den) * 2 ^ exponentOf num den = 1 := by
    rw [zpow_neg, inv_mul_cancel₀ scale.ne']
  rw [zpow_add₀ two_ne_zero] at unit
  unfold rounded
  norm_num at unit ⊢
  nlinarith

end

section
variable {n₁ d₁ n₂ d₂ : Nat}

theorem exponentOf_mono (hn₁ : 0 < n₁) (hd₁ : 0 < d₁) (hn₂ : 0 < n₂) (hd₂ : 0 < d₂)
    (h : (n₁ / d₁ : ℚ) ≤ n₂ / d₂) : exponentOf n₁ d₁ ≤ exponentOf n₂ d₂ := by
  have := lt_of_two_zpow_lt
    ((floorLog2_spec hn₁ hd₁).1.trans h |>.trans_lt (floorLog2_spec hn₂ hd₂).2)
  unfold exponentOf
  omega

theorem significandOf_mono (hd₁ : 0 < d₁) (hd₂ : 0 < d₂) (h : (n₁ / d₁ : ℚ) ≤ n₂ / d₂)
    (same : exponentOf n₁ d₁ = exponentOf n₂ d₂) : significandOf n₁ d₁ ≤ significandOf n₂ d₂ := by
  unfold significandOf
  rw [same]
  apply roundDiv_mono (scaled_den_pos hd₁ _) (scaled_den_pos hd₂ _)
  rw [← Nat.cast_le (α := ℚ), Nat.cast_mul, Nat.cast_mul, scaled_eq n₁ d₁ _ hd₁,
    scaled_eq n₂ d₂ _ hd₂]
  calc _ = (n₁ / d₁ : ℚ) * (2 ^ (-exponentOf n₂ d₂) * (scaled n₁ d₁ (exponentOf n₂ d₂)).2 *
          (scaled n₂ d₂ (exponentOf n₂ d₂)).2) := by ring
    _ ≤ (n₂ / d₂ : ℚ) * (2 ^ (-exponentOf n₂ d₂) * (scaled n₁ d₁ (exponentOf n₂ d₂)).2 *
          (scaled n₂ d₂ (exponentOf n₂ d₂)).2) := by gcongr
    _ = _ := by ring

/-- Of two positive quotients the larger one is not rounded to less. -/
theorem rounded_mono (hn₁ : 0 < n₁) (hd₁ : 0 < d₁) (hn₂ : 0 < n₂) (hd₂ : 0 < d₂)
    (h : (n₁ / d₁ : ℚ) ≤ n₂ / d₂) : rounded n₁ d₁ ≤ rounded n₂ d₂ := by
  rcases (exponentOf_mono hn₁ hd₁ hn₂ hd₂ h).lt_or_eq with less | same
  · -- between the two exponents lies a power of two that neither is rounded across
    have normal : leastExponent < exponentOf n₂ d₂ := lt_of_le_of_lt (le_max_left _ _) less
    calc rounded n₁ d₁ ≤ 2 ^ 53 * 2 ^ exponentOf n₁ d₁ := by
          unfold rounded
          gcongr
          exact_mod_cast significandOf_le hn₁ hd₁
      _ = 2 ^ 52 * 2 ^ (exponentOf n₁ d₁ + 1) := by
          rw [zpow_add_one₀ two_ne_zero]
          ring
      _ ≤ 2 ^ 52 * 2 ^ exponentOf n₂ d₂ := by
          gcongr
          · exact one_le_two
          · omega
      _ ≤ rounded n₂ d₂ := by
          unfold rounded
          gcongr
          exact_mod_cast le_significandOf hn₂ hd₂ normal
  · unfold rounded
    rw [same]
    gcongr
    exact significandOf_mono hd₁ hd₂ h same

end

theorem nearest_eq (num den : Nat) : nearest num den =
    if significandOf num den = 2 ^ 53 then (2 ^ 52, exponentOf num den + 1)
    else (significandOf num den, exponentOf num den) := rfl

/-- The carry into the next exponent keeps the value. -/
theorem nearest_value (num den : Nat) :
    ((nearest num den).1 : ℚ) * 2 ^ (nearest num den).2 = rounded num den := by
  rw [nearest_eq, rounded]
  split
  case isTrue carry =>
    rw [carry, zpow_add_one₀ two_ne_zero]
    push_cast
    ring
  case isFalse => rfl

theorem nearest_exponent_mono {n₁ d₁ n₂ d₂ : Nat} (hn₁ : 0 < n₁) (hd₁ : 0 < d₁) (hn₂ : 0 < n₂)
    (hd₂ : 0 < d₂) (h : (n₁ / d₁ : ℚ) ≤ n₂ / d₂) : (nearest n₁ d₁).2 ≤ (nearest n₂ d₂).2 := by
  have exponents := exponentOf_mono hn₁ hd₁ hn₂ hd₂ h
  have bound := significandOf_le hn₂ hd₂
  rw [nearest_eq, nearest_eq]
  split
  case isTrue carry₁ =>
    split
    case isTrue carry₂ => exact Int.add_le_add_right exponents 1
    case isFalse whole₂ =>
      -- without a carry of its own the larger quotient has the larger exponent
      have : exponentOf n₁ d₁ ≠ exponentOf n₂ d₂ := fun same => by
        have := significandOf_mono hd₁ hd₂ h same
        omega
      change exponentOf n₁ d₁ + 1 ≤ exponentOf n₂ d₂
      omega
  case isFalse =>
    split
    · change exponentOf n₁ d₁ ≤ exponentOf n₂ d₂ + 1
      omega
    · exact exponents

theorem Finite.toRat_eq (x : Finite) :
    x.toRat = (if x.negative then -1 else 1) * (x.significand * 2 ^ x.exponent) := by
  have magnitude : mkRat x.ratio.1 x.ratio.2 = x.significand * 2 ^ x.exponent := by
    rw [Rat.mkRat_eq_div, Finite.ratio, zpow_eq_div two_ne_zero]
    simp only [Nat.pow_eq]
    push_cast
    ring
  rw [Finite.toRat, magnitude]
  split <;> ring

/-- The order of numbers; what is not a number is not in it. -/
instance : LE Binary64 where
  le x y := match x, y with
    | .finite x, .finite y => x.toRat ≤ y.toRat
    | .infinite true, .finite _ | .infinite true, .infinite _ => True
    | .finite _, .infinite false | .infinite false, .infinite false => True
    | _, _ => False

/-- What a positive exact value is rounded to. -/
def roundedRat (q : ℚ) : ℚ := rounded q.num.natAbs q.den

section
variable {q : ℚ} {bound : ℚ}

theorem natAbs_div_den (hq : 0 < q) : (q.num.natAbs / q.den : ℚ) = q := by
  have : ((q.num.natAbs : ℤ) : ℚ) = q.num := by rw [Int.natAbs_of_nonneg (Rat.num_pos.2 hq).le]
  rw [← Int.cast_natCast, this, Rat.num_div_den]

theorem natAbs_pos (hq : 0 < q) : 0 < q.num.natAbs := Int.natAbs_pos.2 (Rat.num_pos.2 hq).ne'

theorem not_below_ofRat (hq : 0 < q) : (ofRat q).below bound = false ↔
    greatestExponent < (nearest q.num.natAbs q.den).2 ∨ bound ≤ roundedRat q := by
  rw [ofRat, decide_eq_false hq.not_gt, ofRatio, if_neg (natAbs_pos hq).ne']
  dsimp only
  split
  case isTrue beyond => simpa [below] using .inl beyond
  case isFalse within =>
    rw [below, Finite.toRat_eq]
    simp [within, nearest_value, roundedRat]

theorem not_below_ofRat_mono {p : ℚ} (hp : 0 < p) (h : p ≤ q)
    (apart : (ofRat p).below bound = false) : (ofRat q).below bound = false := by
  have hq := hp.trans_le h
  have quotients : (p.num.natAbs / p.den : ℚ) ≤ q.num.natAbs / q.den := by
    rwa [natAbs_div_den hp, natAbs_div_den hq]
  rw [not_below_ofRat hq]
  rcases (not_below_ofRat hp).1 apart with beyond | within
  · exact .inl (beyond.trans_le
      (nearest_exponent_mono (natAbs_pos hp) p.pos (natAbs_pos hq) q.pos quotients))
  · exact .inr (within.trans (rounded_mono (natAbs_pos hp) p.pos (natAbs_pos hq) q.pos quotients))

theorem below_ofRat_of_neg (hq : q < 0) (positive : 0 < bound) : (ofRat q).below bound = true := by
  have nonzero : q.num.natAbs ≠ 0 := Int.natAbs_ne_zero.2 (Rat.num_neg.2 hq).ne
  rw [ofRat, decide_eq_true hq, ofRatio, if_neg nonzero]
  dsimp only
  split
  · rfl
  · rw [below, Finite.toRat_eq, decide_eq_true_eq]
    refine lt_of_le_of_lt ?_ positive
    simp only [if_true]
    have : (0 : ℚ) ≤ (nearest q.num.natAbs q.den).1 * 2 ^ (nearest q.num.natAbs q.den).2 := by positivity
    linarith

end

theorem Finite.toRat_neg (x : Finite) :
    Finite.toRat { x with negative := !x.negative } = -x.toRat := by
  rw [Finite.toRat_eq, Finite.toRat_eq]
  cases x.negative <;> simp

theorem sub_finite (x y : Finite) : ∃ b, (Binary64.finite x).sub (.finite y) =
    if x.toRat - y.toRat = 0 then zero b else ofRat (x.toRat - y.toRat) := by
  refine ⟨x.isZero && x.negative && !y.negative, ?_⟩
  simp only [sub, neg, add, Finite.toRat_neg, ← sub_eq_add_neg]

theorem toRat_zero (b : Bool) : Finite.toRat ⟨b, 0, leastExponent⟩ = 0 := by
  simp [Finite.toRat_eq]

theorem sub_pos_of_apart {x y : Finite} {bound : ℚ} (positive : 0 < bound)
    (apart : ((Binary64.finite x).sub (.finite y)).below bound = false) :
    0 < x.toRat - y.toRat ∧ (ofRat (x.toRat - y.toRat)).below bound = false := by
  obtain ⟨b, difference⟩ := sub_finite x y
  rw [difference] at apart
  split at apart
  case isTrue none =>
    rw [zero, below, toRat_zero, decide_eq_false_iff_not] at apart
    exact absurd positive apart
  case isFalse some =>
    refine ⟨?_, apart⟩
    by_contra notPositive
    have negative := lt_of_le_of_ne (not_lt.1 notPositive) some
    rw [below_ofRat_of_neg negative positive] at apart
    cases apart

/-- What is still not below a positive bound when `y` is subtracted is not below it either when
something smaller is. -/
theorem sub_antitone {x y z : Binary64} {bound : ℚ} (positive : 0 < bound) (h : z ≤ y)
    (apart : (x.sub y).below bound = false) : (x.sub z).below bound = false := by
  match x, y, z with
  | .finite x, .finite y, .finite z =>
    change z.toRat ≤ y.toRat at h
    obtain ⟨difference, rounds⟩ := sub_pos_of_apart positive apart
    have more : x.toRat - y.toRat ≤ x.toRat - z.toRat := by linarith
    obtain ⟨b, same⟩ := sub_finite x z
    rw [same, if_neg (difference.trans_le more).ne']
    exact not_below_ofRat_mono difference more rounds
  | .finite _, .finite _, .infinite true => rfl
  | .finite _, .infinite true, .infinite true => rfl
  | .finite _, .infinite false, _ => cases apart
  | .infinite false, _, .finite _ => rfl
  | .infinite false, _, .infinite true => rfl
  | .infinite false, _, .infinite false => rfl
  | .infinite true, .finite _, _ => cases apart
  | .infinite true, .infinite false, _ => cases apart
  | .infinite true, .infinite true, .infinite true => rfl
  | .undefined, _, .finite _ => rfl
  | .undefined, _, .infinite _ => rfl
  | _, _, .undefined => exact absurd h id

/-- The window after `t'` is over at `t`. The difference of the two is rounded, which can make it
larger by its 2 ^ 53-rd part. -/
structure Apart (window : ℚ) (t t' : Binary64) : Prop where
  rounds : (t.sub t').below window = false
  close : ∀ x y z, t = .finite x → t' = .finite y → t.sub t' = .finite z →
    window ≤ (x.toRat - y.toRat) * (1 + 1 / 2 ^ 53)
  exactly : ∀ x y z, t = .finite x → t' = .finite y → t.sub t' = .finite z →
    z.toRat = x.toRat - y.toRat → y.toRat + window ≤ x.toRat

theorem apart_of_not_below {window : ℚ} {t t' : Binary64} (large : 1 ≤ window)
    (h : (t.sub t').below window = false) : Apart window t t' where
  rounds := h
  close := by
    rintro x y z rfl rfl difference
    obtain ⟨positive, rounds⟩ := sub_pos_of_apart (by linarith) h
    obtain ⟨b, same⟩ := sub_finite x y
    rw [same, if_neg positive.ne'] at difference
    rcases (not_below_ofRat positive).1 rounds with beyond | within
    · rw [ofRat, ofRatio, if_neg (natAbs_pos positive).ne'] at difference
      simp [beyond] at difference
    · have := rounded_le (natAbs_pos positive) (x.toRat - y.toRat).pos (large.trans within)
      rw [natAbs_div_den positive] at this
      exact within.trans this
  exactly := by
    rintro x y z rfl rfl difference exact_difference
    rw [difference, below, decide_eq_false_iff_not, not_lt, exact_difference] at h
    linarith

end Binary64
end ChatCommands
