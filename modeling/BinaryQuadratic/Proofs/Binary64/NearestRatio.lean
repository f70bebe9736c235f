import Mathlib.Data.Int.Log
import BinaryQuadratic.Proofs.Binary64.ExactValue

/-!
The number nearest to a ratio depends on the value of the ratio only, and every ratio that is close
to a number has that number as its nearest one.
-/

namespace BinaryQuadratic.Binary64

variable {num den : Nat}

theorem ratio_scaled (num den : Nat) (exponent : Int) :
    ((scaleUp num (-exponent) : Nat) : ℚ) / (scaleUp den exponent : Nat) =
      num / den / 2 ^ exponent := by
  have scale : (2 : ℚ) ^ (-exponent).toNat ≠ 0 := by positivity
  rw [scaleUp_eq, scaleUp_eq]
  push_cast
  rw [← zpow_split exponent]
  field_simp

theorem log_ratio_bounds (numPositive : 0 < num) (denPositive : 0 < den) :
    (num.log2 : Int) - den.log2 - 1 ≤ Int.log 2 ((num : ℚ) / den) ∧
      Int.log 2 ((num : ℚ) / den) < (num.log2 : Int) - den.log2 + 1 := by
  have value : (0 : ℚ) < num / den := by positivity
  have positive : (0 : ℚ) < den := by exact_mod_cast denPositive
  constructor
  · rw [← Int.zpow_le_iff_le_log one_lt_two value, Nat.cast_ofNat, le_div_iff₀ positive]
    have below : (2 : ℚ) ^ num.log2 ≤ num := by exact_mod_cast Nat.log2_self_le numPositive.ne'
    have above : (den : ℚ) ≤ 2 ^ (den.log2 + 1) := by exact_mod_cast Nat.lt_log2_self.le
    calc (2 : ℚ) ^ ((num.log2 : Int) - den.log2 - 1) * den
        ≤ 2 ^ ((num.log2 : Int) - den.log2 - 1) * 2 ^ (den.log2 + 1) := by gcongr
      _ = 2 ^ num.log2 := by
          rw [← zpow_natCast, ← zpow_natCast, ← zpow_add₀ (by norm_num)]
          congr 1
          omega
      _ ≤ num := below
  · rw [← Int.lt_zpow_iff_log_lt one_lt_two value, Nat.cast_ofNat, div_lt_iff₀ positive]
    have below : (2 : ℚ) ^ den.log2 ≤ den := by exact_mod_cast Nat.log2_self_le denPositive.ne'
    have above : (num : ℚ) < 2 ^ (num.log2 + 1) := by exact_mod_cast Nat.lt_log2_self
    calc (num : ℚ) < 2 ^ (num.log2 + 1) := above
      _ = 2 ^ ((num.log2 : Int) - den.log2 + 1) * 2 ^ den.log2 := by
          rw [← zpow_natCast, ← zpow_natCast, ← zpow_add₀ (by norm_num)]
          congr 1
          omega
      _ ≤ 2 ^ ((num.log2 : Int) - den.log2 + 1) * den := by gcongr

theorem exponentOf_eq_log (numPositive : 0 < num) (denPositive : 0 < den) :
    exponentOf num den = max (Int.log 2 ((num : ℚ) / den) - 52) (-1074) := by
  have value : (0 : ℚ) < num / den := by positivity
  have fits : scaleUp num (-((num.log2 : Int) - den.log2 - 53)) <
        scaleUp den ((num.log2 : Int) - den.log2 - 53) * (2 * leadingBit) ↔
      Int.log 2 ((num : ℚ) / den) < num.log2 - den.log2 := by
    have scaled : (0 : ℚ) < (scaleUp den ((num.log2 : Int) - den.log2 - 53) : Nat) := by
      exact_mod_cast scaleUp_positive denPositive _
    have power : (2 : ℚ) ^ ((num.log2 : Int) - den.log2) =
        2 ^ ((num.log2 : Int) - den.log2 - 53) * (2 * leadingBit : Nat) := by
      rw [show ((2 * leadingBit : Nat) : ℚ) = 2 ^ (53 : Int) by norm_num [leadingBit],
        ← zpow_add₀ (by norm_num)]
      congr 1
      omega
    rw [← Int.lt_zpow_iff_log_lt one_lt_two value, Nat.cast_ofNat, power,
      ← div_lt_iff₀' (by positivity), ← ratio_scaled, div_lt_iff₀ scaled, mul_comm]
    norm_cast
  obtain ⟨lower, upper⟩ := log_ratio_bounds numPositive denPositive
  simp only [exponentOf, fits]
  split <;> omega

theorem roundHalfEven_mul {factor : Nat} (positive : 0 < factor) (num den : Nat) :
    roundHalfEven (factor * num) (factor * den) = roundHalfEven num den := by
  have below : 2 * (factor * (num % den)) < factor * den ↔ 2 * (num % den) < den := by
    rw [Nat.mul_left_comm, Nat.mul_lt_mul_left positive]
  have above : factor * den < 2 * (factor * (num % den)) ↔ den < 2 * (num % den) := by
    rw [Nat.mul_left_comm, Nat.mul_lt_mul_left positive]
  simp only [roundHalfEven, Nat.mul_div_mul_left num den positive, Nat.mul_mod_mul_left, below, above]

theorem roundHalfEven_congr {num' den' : Nat} (positive : 0 < den) (positive' : 0 < den')
    (same : (num : ℚ) / den = num' / den') : roundHalfEven num den = roundHalfEven num' den' := by
  have crossed : den' * num = den * num' := by
    rw [div_eq_div_iff (by positivity) (by positivity)] at same
    have whole : num * den' = num' * den := by exact_mod_cast same
    rw [Nat.mul_comm, whole, Nat.mul_comm]
  rw [← roundHalfEven_mul positive', ← roundHalfEven_mul positive num', crossed, Nat.mul_comm den']

theorem magnitudeBits_eq (nonzero : num ≠ 0) : magnitudeBits num den =
    min infinityBits ((exponentOf num den + 1074).toNat * leadingBit +
      roundHalfEven (scaleUp num (-exponentOf num den)) (scaleUp den (exponentOf num den))) := by
  rw [magnitudeBits, if_neg nonzero]

theorem magnitudeBits_congr {num' den' : Nat} (positive : 0 < den) (positive' : 0 < den')
    (same : (num : ℚ) / den = num' / den') : magnitudeBits num den = magnitudeBits num' den' := by
  by_cases zero : num = 0
  · subst zero
    have none : num' = 0 := by
      rw [Nat.cast_zero, zero_div, eq_comm, div_eq_zero_iff] at same
      rcases same with none | none
      · exact_mod_cast none
      · exact (positive'.ne' (by exact_mod_cast none)).elim
    simp [magnitudeBits, none]
  · have nonzero : num' ≠ 0 := by
      rintro rfl
      rw [Nat.cast_zero, zero_div, div_eq_zero_iff] at same
      rcases same with none | none
      · exact zero (by exact_mod_cast none)
      · exact positive.ne' (by exact_mod_cast none)
    have exponents : exponentOf num den = exponentOf num' den' := by
      rw [exponentOf_eq_log (by omega) positive, exponentOf_eq_log (by omega) positive', same]
    have mantissas : roundHalfEven (scaleUp num (-exponentOf num' den'))
          (scaleUp den (exponentOf num' den')) =
        roundHalfEven (scaleUp num' (-exponentOf num' den'))
          (scaleUp den' (exponentOf num' den')) := by
      apply roundHalfEven_congr (scaleUp_positive positive _) (scaleUp_positive positive' _)
      rw [ratio_scaled, ratio_scaled, same]
    rw [magnitudeBits_eq zero, magnitudeBits_eq nonzero, exponents, mantissas]

theorem roundHalfEven_near {n : Nat} (positive : 0 < den)
    (below : (n : ℚ) - 1 / 2 < num / den) (above : (num : ℚ) / den < n + 1 / 2) :
    roundHalfEven num den = n := by
  have room : (0 : ℚ) < den := by exact_mod_cast positive
  have split : den * (num / den) + num % den = num := Nat.div_add_mod num den
  have remainder : num % den < den := Nat.mod_lt num positive
  rw [lt_div_iff₀ room] at below
  rw [div_lt_iff₀ room] at above
  have lower : 2 * (n * den) < 2 * num + den := by
    have : (2 : ℚ) * (n * den) < 2 * num + den := by linarith
    exact_mod_cast this
  have upper : 2 * num < 2 * (n * den) + den := by
    have : (2 : ℚ) * num < 2 * (n * den) + den := by linarith
    exact_mod_cast this
  have floor : num / den = n ∨ num / den + 1 = n := by
    have atMost : num / den < n + 1 := by
      rw [Nat.div_lt_iff_lt_mul positive]
      linarith
    have atLeast : n < num / den + 2 := by
      have wide : n * den < (num / den + 2) * den := by
        linarith [Nat.mul_comm den (num / den)]
      exact Nat.lt_of_mul_lt_mul_right wide
    omega
  have product : den * (num / den) = num / den * den := Nat.mul_comm ..
  simp only [roundHalfEven]
  rcases floor with same | next
  · rw [same] at split product ⊢
    rw [if_pos (by omega)]
  · rw [← next, Nat.add_mul] at lower upper
    rw [if_neg (by omega), if_pos (by omega), next]

theorem exponentOf_of_bounds {exponent : Int} (numPositive : 0 < num) (denPositive : 0 < den)
    (least : -1074 ≤ exponent) (above : (num : ℚ) / den < 2 ^ (exponent + 53))
    (below : exponent = -1074 ∨ 2 ^ (exponent + 52) ≤ (num : ℚ) / den) :
    exponentOf num den = exponent := by
  have value : (0 : ℚ) < num / den := by positivity
  have upper := (Int.lt_zpow_iff_log_lt one_lt_two value).mp above
  rw [exponentOf_eq_log numPositive denPositive]
  rcases below with only | below
  · omega
  · have lower := (Int.zpow_le_iff_le_log one_lt_two value).mp below
    omega

theorem magnitudeBits_of_exponent {n : Nat} {exponent : Int} (numPositive : 0 < num)
    (denPositive : 0 < den) (found : exponentOf num den = exponent)
    (below : (n : ℚ) - 1 / 2 < num / den / 2 ^ exponent)
    (above : (num : ℚ) / den / 2 ^ exponent < n + 1 / 2) :
    magnitudeBits num den = min infinityBits ((exponent + 1074).toNat * leadingBit + n) := by
  rw [← ratio_scaled] at below above
  rw [magnitudeBits_eq numPositive.ne', found,
    roundHalfEven_near (scaleUp_positive denPositive _) below above]

theorem zpow_shift (exponent k : Int) : (2 : ℚ) ^ (exponent + k) = 2 ^ k * 2 ^ exponent := by
  rw [zpow_add₀ (by norm_num), mul_comm]

theorem magnitudeBits_of_scaled {mantissa : Nat} {exponent : Int} {ratio : ℚ}
    (numPositive : 0 < num) (denPositive : 0 < den) (value : (num : ℚ) / den = ratio * 2 ^ exponent)
    (least : -1074 ≤ exponent) (most : exponent ≤ 971) (upper : mantissa ≤ 2 ^ 53)
    (fits : ratio < 2 ^ 53) (large : exponent = -1074 ∨ 2 ^ 52 ≤ ratio)
    (below : (mantissa : ℚ) - 1 / 2 < ratio) (above : ratio < mantissa + 1 / 2) :
    magnitudeBits num den = (exponent + 1074).toNat * leadingBit + mantissa := by
  have scale : (0 : ℚ) < 2 ^ exponent := by positivity
  have scaled : (num : ℚ) / den / 2 ^ exponent = ratio := by
    rw [value, mul_div_cancel_right₀ _ scale.ne']
  have found : exponentOf num den = exponent := by
    apply exponentOf_of_bounds numPositive denPositive least
    · rw [value, zpow_shift]
      exact mul_lt_mul_of_pos_right (by exact_mod_cast fits) scale
    · refine large.imp id fun large => ?_
      rw [value, zpow_shift]
      exact mul_le_mul_of_nonneg_right (by exact_mod_cast large) scale.le
  rw [← scaled] at below above
  rw [magnitudeBits_of_exponent numPositive denPositive found below above, Nat.min_eq_right]
  rw [infinityBits, leadingBit]
  omega

/-- The nearest number of a ratio that is close to a number is that number. Below a power of two
the numbers are twice as dense as above it, so a quarter of the distance is what counts. -/
theorem magnitudeBits_near {mantissa : Nat} {exponent : Int} (denPositive : 0 < den)
    (positive : 0 < mantissa) (upper : mantissa < 2 ^ 53) (least : -1074 ≤ exponent)
    (most : exponent ≤ 971) (normal : 2 ^ 52 ≤ mantissa ∨ exponent = -1074)
    (near : |(num : ℚ) / den / 2 ^ exponent - mantissa| * 2 ^ 54 < mantissa) :
    magnitudeBits num den = (exponent + 1074).toNat * leadingBit + mantissa := by
  have wide : (mantissa : ℚ) + 1 ≤ 2 ^ 53 := by exact_mod_cast upper
  have one : (1 : ℚ) ≤ mantissa := by exact_mod_cast positive
  obtain ⟨ratio, whole⟩ : ∃ ratio : ℚ, (num : ℚ) / den / 2 ^ exponent = ratio := ⟨_, rfl⟩
  have value : (num : ℚ) / den = ratio * 2 ^ exponent := by rw [← whole]; field_simp
  rw [whole] at near
  have farBelow : (mantissa : ℚ) - ratio < mantissa / 2 ^ 54 := by
    rw [lt_div_iff₀ (by positivity)]
    linarith [neg_abs_le (ratio - mantissa)]
  have farAbove : ratio - mantissa < (mantissa : ℚ) / 2 ^ 54 := by
    rw [lt_div_iff₀ (by positivity)]
    linarith [le_abs_self (ratio - mantissa)]
  have ratioPositive : 0 < ratio := by linarith
  have numPositive : 0 < num := by
    have quotient : (0 : ℚ) < num / den := by rw [value]; positivity
    exact_mod_cast (div_pos_iff_of_pos_right (by exact_mod_cast denPositive)).mp quotient
  by_cases same : exponent = -1074 ∨ 2 ^ 52 ≤ ratio
  · apply magnitudeBits_of_scaled numPositive denPositive value least most upper.le _ same
    · linarith
    · linarith
    · norm_num at wide ⊢
      linarith
  · -- The ratio is just below the power of two, where the exponent is one less.
    obtain ⟨notLeast, small⟩ := not_or.mp same
    have small := not_le.mp small
    have leading : mantissa = 2 ^ 52 := by
      refine Nat.le_antisymm ?_ (normal.resolve_right notLeast)
      have bound : (mantissa : ℚ) < 2 ^ 52 + 1 := by linarith
      exact Nat.lt_succ_iff.mp (by exact_mod_cast bound)
    have doubled : (num : ℚ) / den = 2 * ratio * 2 ^ (exponent - 1) := by
      rw [value, sub_eq_add_neg, zpow_shift]
      ring
    have double : (exponent - 1 + 1074).toNat * leadingBit + 2 ^ 53 =
        (exponent + 1074).toNat * leadingBit + mantissa := by
      rw [leading, leadingBit]
      omega
    rw [leading] at farBelow
    push_cast at farBelow
    rw [← double]
    apply magnitudeBits_of_scaled numPositive denPositive doubled (by omega) (by omega) le_rfl
    · linarith
    · right
      linarith
    · push_cast
      linarith
    · push_cast
      linarith

theorem ratio_lt_of_finite (numPositive : 0 < num) (denPositive : 0 < den)
    (finite : magnitudeBits num den < infinityBits) : (num : ℚ) / den < 2 ^ (1025 : ℤ) := by
  have value : (0 : ℚ) < num / den := by positivity
  rw [← Nat.cast_ofNat, Int.lt_zpow_iff_log_lt one_lt_two value]
  rw [magnitudeBits_eq numPositive.ne', exponentOf_eq_log numPositive denPositive, infinityBits,
    leadingBit] at finite
  omega

theorem le_ratio_of_nonzero (numPositive : 0 < num) (denPositive : 0 < den)
    (nonzero : magnitudeBits num den ≠ 0) : 2 ^ (-1075 : ℤ) ≤ (num : ℚ) / den := by
  by_contra small
  have value : (0 : ℚ) < num / den := by positivity
  have exponent : exponentOf num den = -1074 := by
    apply exponentOf_of_bounds numPositive denPositive (Int.le_refl _) _ (.inl rfl)
    exact (not_le.mp small).trans (zpow_lt_zpow_right₀ (by norm_num) (by norm_num))
  apply nonzero
  rw [magnitudeBits_of_exponent (n := 0) numPositive denPositive exponent]
  · rfl
  · have scaled : (0 : ℚ) < num / den / 2 ^ (-1074 : ℤ) := by positivity
    rw [Nat.cast_zero, zero_sub]
    exact (neg_neg_of_pos one_half_pos).trans scaled
  · rw [div_lt_iff₀ (by positivity)]
    refine (not_le.mp small).trans_eq ?_
    rw [show (-1075 : ℤ) = -1 + -1074 by norm_num, zpow_add₀ (by norm_num), zpow_neg_one,
      Nat.cast_zero, zero_add, one_div]

end BinaryQuadratic.Binary64
