import Mathlib
import ChatCommands.Proofs.Rounding

set_option autoImplicit false

/-!
# The number nearest to a quotient

A quotient is rounded to a finite number such that no other one is nearer, and to
one with an even significand if another one is equally near. The range ends where
the greatest finite number and the power of two that would come next are equally
near: from there on a quotient is out of range.
-/
namespace ChatCommands

section
variable {num den : Nat}

theorem abs_roundDiv_sub_le (num : Nat) (hd : 0 < den) : |(roundDiv num den : ℚ) - num / den| ≤ 1 / 2 ∧
    (|(roundDiv num den : ℚ) - num / den| = 1 / 2 → Even (roundDiv num den)) := by
  have positive : (0 : ℚ) < den := mod_cast hd
  have parts : (num / den : ℚ) = (num / den : Nat) + (num % den : Nat) / den := by
    have : (num : ℚ) = den * (num / den : Nat) + (num % den : Nat) := mod_cast (Nat.div_add_mod num den).symm
    rw [this]
    field_simp
  have fraction : (0 : ℚ) ≤ (num % den : Nat) / den := by positivity
  have whole : ((num % den : Nat) / den : ℚ) ≤ 1 :=
    (div_le_one positive).2 (mod_cast (Nat.mod_lt num hd).le)
  have half : ((num % den : Nat) / den : ℚ) = 1 / 2 → 2 * (num % den) = den := by
    intro h
    rw [div_eq_div_iff positive.ne' two_ne_zero] at h
    exact_mod_cast (by linarith : (2 * (num % den : Nat) : ℚ) = den)
  rw [parts]
  obtain ⟨same, small, even⟩ | ⟨same, large, even⟩ := roundDiv_cases num den
  · have : ((num % den : Nat) / den : ℚ) ≤ 1 / 2 := by
      rw [div_le_div_iff₀ positive two_pos]
      exact_mod_cast (by omega : num % den * 2 ≤ 1 * den)
    rw [same, sub_add_cancel_left, abs_neg, abs_of_nonneg fraction]
    exact ⟨this, fun h => even (half h)⟩
  · have : (1 / 2 : ℚ) ≤ (num % den : Nat) / den := by
      rw [div_le_div_iff₀ two_pos positive]
      exact_mod_cast (by omega : 1 * den ≤ num % den * 2)
    have rest : ((num / den + 1 : Nat) : ℚ) - ((num / den : Nat) + (num % den : Nat) / den) =
        1 - (num % den : Nat) / den := by
      push_cast
      ring
    rw [same, rest, abs_of_nonneg (by linarith)]
    exact ⟨by linarith, fun h => even (half (by linarith))⟩

/-- An integer that is off by at most one half is the nearest one, and another one is as near only
if it is off by one half. -/
theorem nearest_of_abs_sub_le {m k : Nat} {r : ℚ} (close : |(m : ℚ) - r| ≤ 1 / 2) :
    |(m : ℚ) - r| ≤ |(k : ℚ) - r| ∧ (k ≠ m → |(k : ℚ) - r| = |(m : ℚ) - r| → |(m : ℚ) - r| = 1 / 2) := by
  by_cases same : k = m
  · exact ⟨by rw [same], fun other => absurd same other⟩
  · have apart : (1 : ℚ) ≤ |(k : ℚ) - m| := by
      have : (1 : ℤ) ≤ |(k : ℤ) - m| := Int.one_le_abs (sub_ne_zero.2 (mod_cast same))
      exact_mod_cast this
    have between := abs_sub_le (k : ℚ) r m
    rw [abs_sub_comm r] at between
    exact ⟨by linarith, fun _ equal => by linarith⟩

end

namespace Binary64

/-- The finite numbers of the range, each in one way. -/
structure Finite.Fits (x : Finite) : Prop where
  significand : x.significand < 2 ^ precision
  least : leastExponent ≤ x.exponent
  greatest : x.exponent ≤ greatestExponent
  normal : leastExponent < x.exponent → 2 ^ (precision - 1) ≤ x.significand

/-- No finite number is nearer than this one, and it is even if another one is equally near. -/
structure RoundsTo (q : ℚ) (x : Finite) : Prop where
  fits : x.Fits
  nearest : ∀ y : Finite, y.Fits → |x.toRat - q| ≤ |y.toRat - q|
  even : ∀ y : Finite, y.Fits → y.toRat ≠ x.toRat → |y.toRat - q| = |x.toRat - q| → Even x.significand

section
variable {num den : Nat}

theorem abs_signed (negative : Bool) (a : ℚ) : |(if negative then -1 else 1) * a| = |a| := by
  cases negative <;> simp

theorem abs_signed_sub (negative : Bool) (a b : ℚ) :
    |(if negative then -1 else 1) * a - (if negative then -1 else 1) * b| = |a - b| := by
  rw [← mul_sub, abs_signed]

theorem abs_opposite_sub (negative : Bool) {a b : ℚ} (ha : 0 ≤ a) (hb : 0 ≤ b) :
    |(if !negative then -1 else 1) * a - (if negative then -1 else 1) * b| = a + b := by
  have turned : (if !negative then -1 else 1) * a - (if negative then -1 else 1) * b =
      (if !negative then -1 else 1) * (a + b) := by
    cases negative
    · simp only [Bool.not_false, if_true, Bool.false_eq_true, if_false]
      ring
    · simp
  rw [turned, abs_signed, abs_of_nonneg (by linarith)]

theorem abs_mul_two_zpow_sub (a q : ℚ) (e : Int) : |a * 2 ^ e - q| = |a - q * 2 ^ (-e)| * 2 ^ e := by
  have scale : (0 : ℚ) < 2 ^ e := by positivity
  rw [zpow_neg, ← abs_of_pos scale, ← abs_mul, abs_of_pos scale, sub_mul, inv_mul_cancel_right₀ scale.ne']

theorem abs_significandOf_sub_le (num : Nat) (hd : 0 < den) :
    |(significandOf num den : ℚ) - num / den * 2 ^ (-exponentOf num den)| ≤ 1 / 2 ∧
      (|(significandOf num den : ℚ) - num / den * 2 ^ (-exponentOf num den)| = 1 / 2 →
        Even (significandOf num den)) := by
  have positive : 0 < (scaled num den (exponentOf num den)).2 := scaled_den_pos hd _
  have exact_scaled : ((scaled num den (exponentOf num den)).1 / (scaled num den (exponentOf num den)).2 : ℚ) =
      num / den * 2 ^ (-exponentOf num den) := by
    rw [scaled_eq num den _ hd, mul_div_cancel_right₀]
    exact_mod_cast positive.ne'
  have close := abs_roundDiv_sub_le (scaled num den (exponentOf num den)).1 positive
  rwa [exact_scaled] at close

theorem even_nearest (h : Even (significandOf num den)) : Even (nearest num den).1 := by
  rw [nearest_eq]
  split
  · exact ⟨2 ^ 51, by norm_num⟩
  · exact h

theorem rounded_nearest_multiple (num : Nat) (hd : 0 < den) (k : Nat) :
    |rounded num den - num / den| ≤ |(k * 2 ^ exponentOf num den : ℚ) - num / den| ∧
      ((k * 2 ^ exponentOf num den : ℚ) ≠ rounded num den →
        |(k * 2 ^ exponentOf num den : ℚ) - num / den| = |rounded num den - num / den| →
          Even (nearest num den).1) := by
  obtain ⟨close, even⟩ := abs_significandOf_sub_le num hd
  have unit : (0 : ℚ) < 2 ^ exponentOf num den := by positivity
  rw [rounded, abs_mul_two_zpow_sub, abs_mul_two_zpow_sub]
  refine ⟨mul_le_mul_of_nonneg_right (nearest_of_abs_sub_le close).1 unit.le, fun other equal => ?_⟩
  rw [mul_left_inj' unit.ne'] at equal
  exact even_nearest (even ((nearest_of_abs_sub_le close).2 (fun same => other (by rw [same])) equal))

theorem exists_multiple {e e' : Int} (m : Nat) (coarse : e' ≤ e) : ∃ k : Nat, (m * 2 ^ e : ℚ) = k * 2 ^ e' := by
  refine ⟨m * 2 ^ (e - e').toNat, ?_⟩
  push_cast
  rw [← zpow_natCast, mul_assoc, ← zpow_add₀ two_ne_zero]
  congr 2
  omega

theorem lt_two_zpow_of_lt {m : Nat} {e e' : Int} (bits : m < 2 ^ precision) (fine : e < e') :
    (m * 2 ^ e : ℚ) < 2 ^ (e' + 52) := by
  calc (m * 2 ^ e : ℚ) < 2 ^ precision * 2 ^ e := by
        gcongr
        exact_mod_cast bits
    _ = 2 ^ (e + 53) := by
        rw [precision, ← zpow_natCast, ← zpow_add₀ two_ne_zero, add_comm]
        rfl
    _ ≤ 2 ^ (e' + 52) := zpow_le_zpow_right₀ one_le_two (by omega)

theorem rounded_nearest (hn : 0 < num) (hd : 0 < den) {m : Nat} {e : Int} (bits : m < 2 ^ precision)
    (least : leastExponent ≤ e) : |rounded num den - num / den| ≤ |(m * 2 ^ e : ℚ) - num / den| ∧
      ((m * 2 ^ e : ℚ) ≠ rounded num den →
        |(m * 2 ^ e : ℚ) - num / den| = |rounded num den - num / den| → Even (nearest num den).1) := by
  by_cases coarse : exponentOf num den ≤ e
  · obtain ⟨k, multiple⟩ := exists_multiple m coarse
    rw [multiple]
    exact rounded_nearest_multiple num hd k
  · -- with a smaller unit it is below the least multiple with 53 bits, and the quotient is not
    have small := lt_two_zpow_of_lt bits (not_le.1 coarse)
    have large := two_zpow_exponentOf_le hn hd (by omega)
    have nearer := (rounded_nearest_multiple num hd (2 ^ 52)).1
    have leading : ((2 ^ 52 : Nat) * 2 ^ exponentOf num den : ℚ) = 2 ^ (exponentOf num den + 52) := by
      rw [zpow_add₀ two_ne_zero, mul_comm]
      norm_num
    rw [leading, abs_of_nonpos (sub_nonpos.2 large)] at nearer
    have further : |rounded num den - num / den| < |(m * 2 ^ e : ℚ) - num / den| := by
      rw [abs_of_nonpos (a := (m * 2 ^ e : ℚ) - num / den) (by linarith)]
      linarith
    exact ⟨further.le, fun _ equal => absurd equal further.ne'⟩

theorem fits_nearest (hn : 0 < num) (hd : 0 < den) (negative : Bool)
    (within : (nearest num den).2 ≤ greatestExponent) :
    Finite.Fits ⟨negative, (nearest num den).1, (nearest num den).2⟩ := by
  have most := significandOf_le hn hd
  have least : leastExponent ≤ exponentOf num den := le_max_left _ _
  rw [nearest_eq] at within ⊢
  split at within
  case isTrue carry =>
    simp only [carry, if_true]
    exact ⟨Nat.pow_lt_pow_right (by decide) (by decide), le_trans least (by simp), within, fun _ => le_refl _⟩
  case isFalse whole =>
    simp only [whole, if_false]
    exact ⟨lt_of_le_of_ne most whole, least, within, fun normal => le_significandOf hn hd normal⟩

end

/-- Where the range of finite numbers ends. -/
def limit : Nat := 2 ^ 1024 - 2 ^ 970

theorem limit_eq : (limit : ℚ) = 2 ^ 1024 - 2 ^ 970 := by
  have difference {a b : Nat} (h : b ≤ a) : ((2 ^ a - 2 ^ b : Nat) : ℚ) = 2 ^ a - 2 ^ b := by
    rw [Nat.cast_sub (Nat.pow_le_pow_right two_pos h), Nat.cast_pow, Nat.cast_pow, Nat.cast_ofNat]
  exact difference (by decide)

theorem nearest_limit : (nearest limit 1).2 = greatestExponent + 1 := by
  decide +kernel

section
variable {num den : Nat}

theorem nearest_exponent_le_iff (hn : 0 < num) (hd : 0 < den) :
    (nearest num den).2 ≤ greatestExponent ↔ (num / den : ℚ) < limit := by
  constructor
  · intro within
    by_contra beyond
    have positive : 0 < limit := by decide +kernel
    have := nearest_exponent_mono positive one_pos hn hd (by rwa [Nat.cast_one, div_one, ← not_lt])
    rw [nearest_limit] at this
    omega
  · intro below
    rw [limit_eq] at below
    -- it remains that a quotient with the greatest exponent is not rounded up to the next power of two
    have top : exponentOf num den ≤ greatestExponent := by
      have : (2 : ℚ) ^ floorLog2 num den < 2 ^ (1024 : ℤ) := by
        refine (floorLog2_spec hn hd).1.trans_lt (below.trans ?_)
        exact sub_lt_self _ (by positivity)
      have := lt_of_two_zpow_lt this
      unfold exponentOf greatestExponent leastExponent
      omega
    rw [nearest_eq]
    split
    case isTrue carry =>
      refine Int.add_one_le_of_lt (lt_of_le_of_ne top fun last => ?_)
      have close := (abs_sub_le_iff.1 (abs_significandOf_sub_le num hd).1).1
      rw [carry, last] at close
      have scaled_below : (num / den : ℚ) * 2 ^ (-greatestExponent) < 2 ^ 53 - 1 / 2 := by
        rw [zpow_neg, mul_inv_lt_iff₀ (by positivity)]
        calc (num / den : ℚ) < 2 ^ 1024 - 2 ^ 970 := below
          _ = (2 ^ 53 - 1 / 2) * 2 ^ greatestExponent := by
            rw [greatestExponent, ← zpow_natCast, ← zpow_natCast _ 970, ← zpow_natCast _ 53, sub_mul,
              ← zpow_add₀ two_ne_zero, one_div, ← zpow_neg_one, ← zpow_add₀ two_ne_zero]
            rfl
      push_cast at close
      linarith
    case isFalse => exact top

end

theorem Finite.abs_toRat (x : Finite) : |x.toRat| = x.significand * 2 ^ x.exponent := by
  rw [Finite.toRat_eq, abs_signed, abs_of_nonneg (by positivity)]

section
variable {q : ℚ} {negative : Bool}

theorem roundsTo_zero (small : |q| < 2 ^ (leastExponent - 1)) : RoundsTo q ⟨negative, 0, leastExponent⟩ where
  fits := ⟨Nat.two_pow_pos precision, le_refl _, (by decide : leastExponent ≤ greatestExponent),
    fun less => absurd less (lt_irrefl _)⟩
  nearest := by
    intro y fits
    rw [toRat_zero, zero_sub, abs_neg]
    by_cases none : y.significand = 0
    · simp [Finite.toRat_eq, none]
    · have large : (2 : ℚ) ^ leastExponent ≤ |y.toRat| := by
        calc (2 : ℚ) ^ leastExponent ≤ 2 ^ y.exponent := zpow_le_zpow_right₀ one_le_two fits.least
          _ ≤ y.significand * 2 ^ y.exponent :=
            le_mul_of_one_le_left (by positivity) (mod_cast Nat.one_le_iff_ne_zero.2 none)
          _ = |y.toRat| := y.abs_toRat.symm
      have halves : (2 : ℚ) ^ leastExponent = 2 * 2 ^ (leastExponent - 1) := by
        rw [zpow_sub_one₀ two_ne_zero]
        ring
      have := abs_sub_abs_le_abs_sub y.toRat q
      linarith
  even := fun _ _ _ _ => ⟨0, rfl⟩

/-- A number on the other side of zero is not nearer than the one of the same size on this side. -/
theorem roundsTo_of_magnitude {m : Nat} {e : Int} (positive : 0 < q) (fits : Finite.Fits ⟨negative, m, e⟩)
    (nearest : ∀ (k : Nat) (f : Int), k < 2 ^ precision → leastExponent ≤ f →
      |(m * 2 ^ e : ℚ) - q| ≤ |(k * 2 ^ f : ℚ) - q| ∧ ((k * 2 ^ f : ℚ) ≠ m * 2 ^ e →
        |(k * 2 ^ f : ℚ) - q| = |(m * 2 ^ e : ℚ) - q| → Even m)) :
    RoundsTo ((if negative then -1 else 1) * q) ⟨negative, m, e⟩ := by
  refine ⟨fits, ?_, ?_⟩
  · rintro ⟨side, k, f⟩ fits
    have near := (nearest k f fits.significand fits.least).1
    rw [Finite.toRat_eq, Finite.toRat_eq, abs_signed_sub]
    obtain rfl | rfl := Bool.eq_or_eq_not side negative
    · rwa [abs_signed_sub]
    · rw [abs_opposite_sub _ (by positivity) positive.le]
      refine near.trans (abs_le.2 ⟨?_, by linarith⟩)
      have : (0 : ℚ) ≤ k * 2 ^ f := by positivity
      linarith
  · rintro ⟨side, k, f⟩ fits other equal
    obtain ⟨near, even⟩ := nearest k f fits.significand fits.least
    rw [Finite.toRat_eq, Finite.toRat_eq] at other equal
    rw [abs_signed_sub] at equal
    obtain rfl | rfl := Bool.eq_or_eq_not side negative
    · rw [abs_signed_sub] at equal
      exact even (fun same => other (by rw [same])) equal
    · have least : (0 : ℚ) ≤ k * 2 ^ f := by positivity
      rw [abs_opposite_sub _ least positive.le] at equal
      -- only zero is as near as its negation
      have zero : (k * 2 ^ f : ℚ) = 0 := by
        by_contra some
        have less : |(k * 2 ^ f : ℚ) - q| < k * 2 ^ f + q :=
          abs_lt.2 ⟨by linarith [least.lt_of_ne' some], by linarith⟩
        linarith
      rw [zero] at even other equal
      refine even (fun same => other ?_) ?_
      · rw [← same, mul_zero, mul_zero]
      · rw [← equal, zero_sub, abs_neg, abs_of_pos positive, zero_add]

section
variable {num den : Nat}

theorem ofRatio_of_lt (negative : Bool) (hd : 0 < den) (below : (num / den : ℚ) < limit) :
    ∃ x, ofRatio negative num den = .finite x ∧
      RoundsTo ((if negative then -1 else 1) * (num / den)) x := by
  rw [ofRatio]
  split
  case isTrue none => exact ⟨_, rfl, roundsTo_zero (by simp [none]; positivity)⟩
  case isFalse some =>
    have hn : 0 < num := Nat.pos_of_ne_zero some
    have within := (nearest_exponent_le_iff hn hd).2 below
    refine ⟨⟨negative, (nearest num den).1, (nearest num den).2⟩, if_neg (not_lt.2 within), ?_⟩
    refine roundsTo_of_magnitude (by positivity) (fits_nearest hn hd negative within) fun k f bits least => ?_
    rw [nearest_value]
    exact rounded_nearest hn hd bits least

theorem ofRatio_of_limit_le (negative : Bool) (hd : 0 < den) (beyond : (limit : ℚ) ≤ num / den) :
    ofRatio negative num den = .infinite negative := by
  have hn : 0 < num := by
    refine Nat.pos_of_ne_zero fun none => ?_
    have : (0 : ℚ) < limit := by exact_mod_cast (by decide +kernel : 0 < limit)
    rw [none, Nat.cast_zero, zero_div] at beyond
    linarith
  have := mt (nearest_exponent_le_iff hn hd).1 (not_lt.2 beyond)
  rw [ofRatio, if_neg hn.ne']
  exact if_pos (not_le.1 this)

end
end
end Binary64
end ChatCommands
