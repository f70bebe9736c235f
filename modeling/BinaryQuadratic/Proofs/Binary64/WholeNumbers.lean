import BinaryQuadratic.Proofs.Binary64.ExactValue
import BinaryQuadratic.Proofs.Binary64.Fields
import BinaryQuadratic.Proofs.Binary64.NearestRatio

/-!
Integers as binary64 numbers and their sums. Up to the largest power of two below which all
integers are numbers nothing is rounded, and no other integer than zero becomes a zero.
-/

namespace BinaryQuadratic.Binary64

open Float.Model (Format UnpackedFloat totalExponent)
open Float.Model.UnpackedFloat

structure Represents (x : Float) (n : Int) : Prop where
  finite : x.isFinite = true
  value : exactValue x = n

theorem exactValue_of_parts {x : Float} {negative : Bool} {mantissa : Nat} {exponent : Int}
    (found : parts x = .finite negative mantissa exponent) :
    exactValue x = applySign negative mantissa * 2 ^ exponent := by
  rw [exactValue, found, Parts.exactValue]

theorem isFinite_of_toFloat {n : Int} {x : Float} (run : (Number.int n).toFloat = .ok x) :
    x.isFinite = true := by
  obtain ⟨negative, mantissa, exponent, found⟩ := parts_of_toFloat run
  exact isFinite_of_parts found

theorem exactValue_of_toFloat_ne_zero {n : Int} {x : Float}
    (run : (Number.int n).toFloat = .ok x) (nonzero : n ≠ 0) : exactValue x ≠ 0 := by
  obtain ⟨finite, rfl⟩ := toFloat_int_eq_ok.mp run
  -- The exponent field is not zero, so that the mantissa has its leading bit.
  have bits := magnitudeBits_nat (n := n.natAbs) (by omega)
  rw [infinityBits] at bits finite
  have small : magnitudeBits n.natAbs 1 < signBit := by
    rw [signBit]
    omega
  have found := parts_ofBits (decide (n < 0)) small
  rw [if_neg (by rw [leadingBit]; omega), if_neg (by rw [leadingBit]; omega)] at found
  rw [exactValue_of_parts found]
  apply mul_ne_zero _ (zpow_ne_zero _ two_ne_zero)
  rw [Int.cast_ne_zero, applySign, leadingBit]
  split <;> omega

theorem equals_zero_of_toFloat {n : Int} {x : Float} (run : (Number.int n).toFloat = .ok x) :
    (Number.float x).equals (.int 0) = (Number.int n).equals (.int 0) := by
  rw [Bool.eq_iff_iff, Number.equals_iff (.float (isFinite_of_toFloat run)) (.int 0),
    Number.equals_iff (.int n) (.int 0), Rat.intCast_inj, Int.cast_zero]
  constructor
  · intro zero
    by_contra nonzero
    exact exactValue_of_toFloat_ne_zero run nonzero zero
  · rintro rfl
    cases run
    exact exactValue_zero

theorem digits_of_whole {n : Nat} (positive : 0 < n) (bound : n ≤ 2 ^ 53) :
    ∃ (mantissa : Nat) (exponent : Int), (n : ℚ) = mantissa * 2 ^ exponent ∧
      2 ^ 52 ≤ mantissa ∧ mantissa < 2 ^ 53 ∧ -52 ≤ exponent ∧ exponent ≤ 1 := by
  by_cases largest : n = 2 ^ 53
  · refine ⟨2 ^ 52, 1, ?_, by decide, by decide, by decide, by decide⟩
    rw [largest]
    norm_num
  · have digits : n.log2 < 53 := (Nat.log2_lt (by omega)).mpr (by omega)
    refine ⟨n * 2 ^ (52 - n.log2), n.log2 - 52, ?_, ?_, ?_, by omega, by omega⟩
    · push_cast
      rw [mul_assoc, ← zpow_natCast, ← zpow_add₀ two_ne_zero, Nat.cast_sub (by omega)]
      simp
    · calc 2 ^ 52 = 2 ^ n.log2 * 2 ^ (52 - n.log2) := by
            rw [← Nat.pow_add, Nat.add_sub_cancel' (by omega)]
        _ ≤ n * 2 ^ (52 - n.log2) := Nat.mul_le_mul_right _ (Nat.log2_self_le (by omega))
    · calc n * 2 ^ (52 - n.log2) < 2 ^ (n.log2 + 1) * 2 ^ (52 - n.log2) :=
            Nat.mul_lt_mul_of_pos_right Nat.lt_log2_self (Nat.two_pow_pos _)
        _ = 2 ^ 53 := by
            rw [← Nat.pow_add]
            congr 1
            omega

theorem toFloat_represents {n : Int} (bound : n.natAbs ≤ 2 ^ 53) :
    ∃ x, (Number.int n).toFloat = .ok x ∧ Represents x n := by
  by_cases zero : n = 0
  · subst zero
    exact ⟨0.0, toFloat_zero, rfl, exactValue_zero⟩
  · obtain ⟨mantissa, exponent, value, lower, upper, least, most⟩ :=
      digits_of_whole (n := n.natAbs) (by omega) bound
    have bits : magnitudeBits n.natAbs 1 = (exponent + 1074).toNat * leadingBit + mantissa := by
      apply magnitudeBits_near one_pos (by omega) upper (by omega) (by omega) (.inl lower)
      have scale : (2 : ℚ) ^ exponent ≠ 0 := zpow_ne_zero _ two_ne_zero
      rw [value, Nat.cast_one, div_one, mul_div_cancel_right₀ _ scale, sub_self, abs_zero, zero_mul]
      exact_mod_cast (by omega : 0 < mantissa)
    have found := parts_of_fields (decide (n < 0)) upper (by omega) (by omega : exponent ≤ 971)
      (.inl lower)
    refine ⟨_, toFloat_int_eq_ok.mpr ⟨?_, congrArg _ bits⟩, isFinite_of_parts found, ?_⟩
    · rw [bits, infinityBits, leadingBit]
      omega
    · rw [exactValue_of_parts found, applySign]
      by_cases negative : n < 0
      · have magnitude : (n.natAbs : ℚ) = -n := by
          rw [Nat.cast_natAbs, abs_of_neg negative, Int.cast_neg]
        rw [if_pos (by simpa using negative), Int.cast_neg, Int.cast_natCast, neg_mul, ← value,
          magnitude, neg_neg]
      · have magnitude : (n.natAbs : ℚ) = n := by
          rw [Nat.cast_natAbs, abs_of_nonneg (Int.not_lt.mp negative)]
        rw [if_neg (by simpa using negative), Int.cast_natCast, ← value, magnitude]

theorem two_zpow_split {exponent power : Int} (order : exponent ≤ power) :
    (2 : ℚ) ^ power = 2 ^ (power - exponent).toNat * 2 ^ exponent := by
  rw [← zpow_natCast, ← zpow_add₀ two_ne_zero]
  congr 1
  omega

theorem digits_of_value {coarse fine : Nat} {power exponent : Int} (order : exponent ≤ power)
    (same : (coarse : ℚ) * 2 ^ power = fine * 2 ^ exponent) :
    fine = coarse * 2 ^ (power - exponent).toNat := by
  rw [two_zpow_split order, ← mul_assoc, mul_left_inj' (zpow_ne_zero _ two_ne_zero)] at same
  exact_mod_cast same.symm

theorem round_exact {sign : Sign} {mantissa other : Nat} {exponent power : Int}
    {positive : 0 < mantissa} (legal : Legal (.finite sign mantissa exponent positive))
    (same : (other : ℚ) * 2 ^ power = mantissa * 2 ^ exponent) :
    UnpackedFloat.round .binary64 sign other power =
      .finite sign mantissa exponent positive := by
  have nonzero : other ≠ 0 := by
    rintro rfl
    have scale : (2 : ℚ) ^ exponent ≠ 0 := zpow_ne_zero _ two_ne_zero
    rw [Nat.cast_zero, zero_mul, zero_eq_mul, or_iff_left scale] at same
    exact positive.ne' (by exact_mod_cast same)
  have total : totalExponent other power = totalExponent mantissa exponent := by
    rcases le_total exponent power with up | down
    · have digits := digits_of_value up same
      have length := log2_mul_two_pow (Nat.pos_of_ne_zero nonzero) (power - exponent).toNat
      rw [totalExponent, totalExponent, digits, length]
      omega
    · have digits := digits_of_value down same.symm
      have length := log2_mul_two_pow positive (exponent - power).toNat
      rw [totalExponent, totalExponent, digits, length]
      omega
  simp only [UnpackedFloat.round, decreaseExponent, total, targetExponent_legal legal,
    Nat.shiftLeft_eq]
  rcases le_total exponent power with up | down
  · have lowered : power - (power - exponent).toNat = exponent - (0 : Nat) := by omega
    have kept := roundWithAccuracy_exact legal 0
    rw [Nat.pow_zero, Nat.mul_one] at kept
    rw [lowered, ← digits_of_value up same, kept]
  · have kept : (power - exponent).toNat = 0 := by omega
    have lowered : power - (0 : Nat) = exponent - (exponent - power).toNat := by omega
    rw [kept, Nat.pow_zero, Nat.mul_one, lowered, digits_of_value down same.symm]
    exact roundWithAccuracy_exact legal _

def valueOf (u : UnpackedFloat) : ℚ := (partsOf u).exactValue

theorem exactValue_eq_valueOf (x : Float) : exactValue x = valueOf (decode x) := by
  rw [exactValue, parts_eq, valueOf]

theorem valueOf_zero (sign : Sign) : valueOf (.zero sign) = 0 := by
  cases sign <;> simp [valueOf, partsOf, Parts.exactValue, applySign]

theorem valueOf_finite (sign : Sign) {mantissa : Nat} (exponent : Int) (positive : 0 < mantissa) :
    valueOf (.finite sign mantissa exponent positive) = sign.apply mantissa * 2 ^ exponent := by
  cases sign <;> rfl

theorem lowered_value (sign : Sign) (mantissa : Nat) {exponent power : Int}
    (order : power ≤ exponent) :
    (sign.apply (decreaseExponent mantissa exponent power).1 : ℚ) * 2 ^ power =
      sign.apply mantissa * 2 ^ exponent := by
  rw [decreaseExponent, Nat.shiftLeft_eq, two_zpow_split order, ← mul_assoc]
  cases sign <;> simp [Sign.apply]

theorem normalize_signed {sign : Sign} {sum power : Int} (present : 0 < sign.apply sum) :
    UnpackedFloat.normalize .binary64 sum power .positive =
      UnpackedFloat.round .binary64 sign (sign.apply sum).toNat power := by
  unfold UnpackedFloat.normalize
  cases sign with
  | negative =>
      rw [Sign.apply] at present
      rw [compare_lt_iff_lt.mpr (by omega : sum < 0), Sign.apply]
  | positive =>
      rw [Sign.apply] at present
      rw [compare_gt_iff_gt.mpr (by omega : sum > 0), Sign.apply]

theorem normalize_exact {sign : Sign} {mantissa : Nat} {exponent sum power : Int}
    {positive : 0 < mantissa} (legal : Legal (.finite sign mantissa exponent positive))
    (same : (sum : ℚ) * 2 ^ power = sign.apply mantissa * 2 ^ exponent) :
    UnpackedFloat.normalize .binary64 sum power .positive =
      .finite sign mantissa exponent positive := by
  have scale (e : Int) : (0 : ℚ) < 2 ^ e := zpow_pos two_pos _
  have signed : (sign.apply sum : ℚ) * 2 ^ power = mantissa * 2 ^ exponent := by
    cases sign with
    | negative =>
        simp only [Sign.apply, Int.cast_neg, Int.cast_natCast, neg_mul] at same ⊢
        rw [same, neg_neg]
    | positive => exact same
  have present : 0 < sign.apply sum := by
    have value : (0 : ℚ) < sign.apply sum * 2 ^ power := by
      rw [signed]
      exact mul_pos (by exact_mod_cast positive) (scale exponent)
    exact_mod_cast (mul_pos_iff_of_pos_right (scale power)).mp value
  have magnitude : ((sign.apply sum).toNat : ℚ) = sign.apply sum := by
    exact_mod_cast Int.toNat_of_nonneg present.le
  rw [normalize_signed present]
  apply round_exact legal
  rw [magnitude, signed]

theorem normalize_sum {w : UnpackedFloat} {sum power : Int} (legal : Legal w)
    (finite : w.isFinite = true) (same : (sum : ℚ) * 2 ^ power = valueOf w) :
    Legal (UnpackedFloat.normalize .binary64 sum power .positive) ∧
      (UnpackedFloat.normalize .binary64 sum power .positive).isFinite = true ∧
      valueOf (UnpackedFloat.normalize .binary64 sum power .positive) = valueOf w := by
  cases w with
  | notANumber => cases finite
  | infinity sign => cases finite
  | zero sign =>
      have scale : (2 : ℚ) ^ power ≠ 0 := zpow_ne_zero _ two_ne_zero
      rw [valueOf_zero, mul_eq_zero, or_iff_left scale, Int.cast_eq_zero] at same
      rw [same, valueOf_zero]
      exact ⟨trivial, rfl, valueOf_zero _⟩
  | finite sign mantissa exponent positive =>
      rw [valueOf_finite] at same
      rw [normalize_exact legal same]
      exact ⟨legal, finite, rfl⟩

/-- What the sum of two decoded numbers is if its value is that of a number: this number, or zero
with some sign. -/
theorem sum_exact {u v w : UnpackedFloat} (uLegal : Legal u) (vLegal : Legal v) (wLegal : Legal w)
    (uFinite : u.isFinite = true) (vFinite : v.isFinite = true) (wFinite : w.isFinite = true)
    (value : valueOf w = valueOf u + valueOf v) :
    Legal (UnpackedFloat.add .binary64 u v) ∧
      (UnpackedFloat.add .binary64 u v).isFinite = true ∧
      valueOf (UnpackedFloat.add .binary64 u v) = valueOf w := by
  cases u with
  | notANumber => cases uFinite
  | infinity sign => cases uFinite
  | zero sign =>
      rw [valueOf_zero, zero_add] at value
      cases v with
      | notANumber => cases vFinite
      | infinity other => cases vFinite
      | zero other =>
          rw [value, valueOf_zero]
          cases sign <;> cases other <;> exact ⟨trivial, rfl, valueOf_zero _⟩
      | finite other mantissa exponent positive => exact ⟨vLegal, rfl, value.symm⟩
  | finite sign mantissa exponent positive =>
      cases v with
      | notANumber => cases vFinite
      | infinity other => cases vFinite
      | zero other =>
          rw [valueOf_zero, add_zero] at value
          exact ⟨uLegal, rfl, value.symm⟩
      | finite other second power present =>
          have same : ((sign.apply (decreaseExponent mantissa exponent (min exponent power)).1 +
              other.apply (decreaseExponent second power (min exponent power)).1 : Int) : ℚ) *
                2 ^ min exponent power = valueOf w := by
            rw [value, Int.cast_add, add_mul, lowered_value sign _ (min_le_left _ _),
              lowered_value other _ (min_le_right _ _), valueOf_finite, valueOf_finite]
          simp only [UnpackedFloat.add]
          exact normalize_sum wLegal wFinite same

theorem add_exact {x y z : Float} (xFinite : x.isFinite = true) (yFinite : y.isFinite = true)
    (zFinite : z.isFinite = true) (value : exactValue z = exactValue x + exactValue y) :
    (x + y).isFinite = true ∧ exactValue (x + y) = exactValue z := by
  simp only [exactValue_eq_valueOf] at value ⊢
  obtain ⟨legal, finite, same⟩ := sum_exact (legal_decode x) (legal_decode y) (legal_decode z)
    xFinite yFinite zFinite value
  rw [isFinite_eq, add_eq, decode_encode legal]
  exact ⟨finite, same⟩

theorem Represents.lt_iff {x y : Float} {m n : Int} (left : Represents x m)
    (right : Represents y n) : x < y ↔ m < n := by
  rw [lt_iff_exactValue left.finite right.finite, left.value, right.value, Int.cast_lt]

theorem Represents.beq_iff {x y : Float} {m n : Int} (left : Represents x m)
    (right : Represents y n) : (x == y) = true ↔ m = n := by
  rw [beq_iff_exactValue left.finite right.finite, left.value, right.value, Int.cast_inj]

theorem Represents.add {x y : Float} {m n : Int} (left : Represents x m) (right : Represents y n)
    (bound : (m + n).natAbs ≤ 2 ^ 53) : Represents (x + y) (m + n) := by
  obtain ⟨z, -, sum⟩ := toFloat_represents bound
  have value : exactValue z = exactValue x + exactValue y := by
    rw [sum.value, left.value, right.value, Int.cast_add]
  obtain ⟨finite, same⟩ := add_exact left.finite right.finite sum.finite value
  exact ⟨finite, same.trans sum.value⟩

end BinaryQuadratic.Binary64
