import BinaryQuadratic.Number
import BinaryQuadratic.Proofs.Binary64.Order

/-!
Integers as binary64 numbers: all up to the largest power of two that is one have a nearest
number, and the powers of two from the next one on have none.
-/

namespace BinaryQuadratic.Binary64

theorem roundHalfEven_le (num den : Nat) : roundHalfEven num den ≤ num / den + 1 := by
  simp only [roundHalfEven]
  split
  · omega
  · split <;> omega

theorem magnitudeBits_le (num den : Nat) : magnitudeBits num den ≤ infinityBits := by
  simp only [magnitudeBits]
  split
  · exact Nat.zero_le _
  · exact Nat.min_le_left _ _

theorem exponentOf_nat {n : Nat} (positive : 0 < n) :
    exponentOf n 1 = max ((n.log2 : Int) - 52) (-1074) := by
  have least : 2 ^ n.log2 ≤ n := Nat.log2_self_le (by omega)
  have wide : ¬scaleUp n (-((n.log2 : Int) - (0 : Nat) - 53)) <
      scaleUp 1 ((n.log2 : Int) - (0 : Nat) - 53) * (2 * leadingBit) := by
    have scaled : 2 ^ 53 * 2 ^ ((n.log2 : Int) - (0 : Nat) - 53).toNat =
        2 ^ n.log2 * 2 ^ (-((n.log2 : Int) - (0 : Nat) - 53)).toNat := by
      rw [← Nat.pow_add, ← Nat.pow_add]
      congr 1
      omega
    rw [scaleUp_eq, scaleUp_eq, Nat.one_mul, Nat.mul_comm _ (2 * leadingBit),
      show 2 * leadingBit = 2 ^ 53 from rfl, scaled]
    exact Nat.not_lt.mpr (Nat.mul_le_mul_right _ least)
  have narrow : Nat.log2 1 = 0 := by decide
  simp only [exponentOf, narrow]
  rw [if_neg wide]
  omega

theorem magnitudeBits_nat {n : Nat} (positive : 0 < n) :
    magnitudeBits n 1 = min infinityBits ((n.log2 + 1022) * 2 ^ 52 +
      roundHalfEven (scaleUp n (52 - n.log2)) (scaleUp 1 (n.log2 - 52))) := by
  have exponent : max ((n.log2 : Int) - 52) (-1074) = n.log2 - 52 := by omega
  have field : ((n.log2 : Int) - 52 + 1074).toNat = n.log2 + 1022 := by omega
  have negated : -((n.log2 : Int) - 52) = 52 - n.log2 := by omega
  simp only [magnitudeBits]
  rw [if_neg (by omega), exponentOf_nat positive, exponent, field, negated]
  rfl

theorem magnitudeBits_lt_infinity {n : Nat} (positive : 0 < n) (small : n.log2 ≤ 1022) :
    magnitudeBits n 1 < infinityBits := by
  have digits : scaleUp n (52 - n.log2) / scaleUp 1 (n.log2 - 52) < 2 ^ 53 := by
    have split : 2 ^ (n.log2 + 1) * 2 ^ ((52 : Int) - n.log2).toNat =
        2 ^ 53 * 2 ^ ((n.log2 : Int) - 52).toNat := by
      rw [← Nat.pow_add, ← Nat.pow_add]
      congr 1
      omega
    rw [scaleUp_eq, scaleUp_eq, Nat.one_mul, Nat.div_lt_iff_lt_mul (Nat.two_pow_pos _), ← split]
    exact Nat.mul_lt_mul_of_pos_right Nat.lt_log2_self (Nat.two_pow_pos _)
  have mantissa := roundHalfEven_le (scaleUp n (52 - n.log2)) (scaleUp 1 (n.log2 - 52))
  rw [magnitudeBits_nat positive, infinityBits]
  omega

theorem magnitudeBits_two_pow {k : Nat} (wide : 52 ≤ k) :
    magnitudeBits (2 ^ k) 1 = min infinityBits ((k + 1023) * 2 ^ 52) := by
  have quotient : 2 ^ k = 2 ^ 52 * 2 ^ (k - 52) := by
    rw [← Nat.pow_add]
    congr 1
    omega
  have low : ((52 : Int) - k).toNat = 0 := by omega
  have high : ((k : Int) - 52).toNat = k - 52 := by omega
  have exact : roundHalfEven (2 ^ 52 * 2 ^ (k - 52)) (2 ^ (k - 52)) = 2 ^ 52 := by
    have room := Nat.two_pow_pos (k - 52)
    simp only [roundHalfEven, Nat.mul_div_cancel _ room, Nat.mul_mod_left]
    rw [if_pos (by omega)]
  have carry : (k + 1022) * 2 ^ 52 + 2 ^ 52 = (k + 1023) * 2 ^ 52 := by omega
  rw [magnitudeBits_nat (Nat.two_pow_pos k), Nat.log2_two_pow, scaleUp_eq, scaleUp_eq, low, high,
    Nat.pow_zero, Nat.mul_one, Nat.one_mul, quotient, exact, carry]

/-- An integer has a nearest number unless the bits nearest to its magnitude are those of an
infinite one. -/
theorem toFloat_int_eq_ok {n : Int} {x : Float} : (Number.int n).toFloat = .ok x ↔
    magnitudeBits n.natAbs 1 < infinityBits ∧
      ofBits (decide (n < 0)) (magnitudeBits n.natAbs 1) = x := by
  have most := magnitudeBits_le n.natAbs 1
  by_cases infinite : magnitudeBits n.natAbs 1 = infinityBits
  · simp [Number.toFloat, ofInt?, infinite]
  · have finite : magnitudeBits n.natAbs 1 < infinityBits := Nat.lt_of_le_of_ne most infinite
    simp [Number.toFloat, ofInt?, infinite, finite]

theorem toFloat_exists {n : Int} {k : Nat} (bound : n.natAbs ≤ 2 ^ k) (small : k < 1024) :
    ∃ x, (Number.int n).toFloat = .ok x := by
  refine ⟨_, toFloat_int_eq_ok.mpr ⟨?_, rfl⟩⟩
  by_cases zero : n.natAbs = 0
  · rw [zero]
    decide
  · by_cases narrow : n.natAbs.log2 ≤ 1022
    · exact magnitudeBits_lt_infinity (by omega) narrow
    · have least : k ≤ n.natAbs.log2 := by omega
      have whole : n.natAbs = 2 ^ k :=
        Nat.le_antisymm bound ((Nat.le_log2 zero).mp least)
      rw [whole, magnitudeBits_two_pow (by rw [whole, Nat.log2_two_pow] at narrow; omega),
        infinityBits]
      omega

theorem isNaN_ofBits {magnitude : Nat} (negative : Bool) (finite : magnitude < infinityBits) :
    (ofBits negative magnitude).isNaN = false := by
  have exponent : magnitude / 2 ^ 52 < 2047 := by
    rw [infinityBits] at finite
    omega
  have word (bits : UInt64) (number : bits.toNat / 2 ^ 52 % 2048 ≠ 2047) :
      (Float.ofBits bits).isNaN = false := by
    have field := unpackExponent_toNat bits.toBitVec
    change (encode (Float.Model.UnpackedFloat.unpack .binary64 bits.toBitVec)).isNaN = false
    rw [isNaN_encode, ← components_unpack bits.toBitVec, unpack_components,
      if_neg (by rw [field]; exact number)]
    split
    · split <;> rfl
    · rfl
  apply word
  rw [UInt64.toNat_ofNat', signBit]
  rw [infinityBits] at finite
  split <;> omega

theorem isNaN_of_toFloat {n : Int} {x : Float} (run : (Number.int n).toFloat = .ok x) :
    x.isNaN = false := by
  obtain ⟨finite, rfl⟩ := toFloat_int_eq_ok.mp run
  exact isNaN_ofBits _ finite

theorem toFloat_two_pow_large {k : Nat} (large : 1024 ≤ k) :
    (Number.int (2 ^ k : Nat)).toFloat = .error .floatOfLargeInteger := by
  have infinite : magnitudeBits (2 ^ k) 1 = infinityBits := by
    rw [magnitudeBits_two_pow (by omega), infinityBits]
    omega
  simp only [Number.toFloat, ofInt?, Int.natAbs_natCast]
  rw [if_pos infinite]
  rfl

end BinaryQuadratic.Binary64
