import BinaryQuadratic.Proofs.Binary64.Arithmetic
import BinaryQuadratic.Proofs.Success

/-!
The sign of zero in sums. A sum is negative zero only where both summands are, so that a sum that
starts elsewhere does not see the sign of a zero that is added to it.
-/

namespace BinaryQuadratic.Binary64

open Float.Model (Format UnpackedFloat totalExponent)
open Float.Model.UnpackedFloat

theorem mantissa_shiftRight (em : ExtendedMantissa) (k : Nat) :
    (em >>> k).mantissa = em.mantissa / 2 ^ k := by
  change (Nat.repeat ExtendedMantissa.shiftRightOne k em).mantissa = _
  induction k with
  | zero => simp [Nat.repeat]
  | succ k ih =>
      rw [Nat.repeat, ExtendedMantissa.shiftRightOne, ih, Nat.div_div_eq_div_mul, ← Nat.pow_succ]

theorem mantissa_ofMantissaAndAccuracy (mantissa : Nat) (accuracy : Accuracy) :
    (ExtendedMantissa.ofMantissaAndAccuracy mantissa accuracy).mantissa = mantissa := by
  cases accuracy with
  | exact => rfl
  | inexact order => cases order <;> rfl

theorem le_roundedMantissa (em : ExtendedMantissa) : em.mantissa ≤ em.roundedMantissa := by
  unfold ExtendedMantissa.roundedMantissa Accuracy.roundToNearestEven
  split <;> omega

theorem shiftToTarget_bounds {mantissa : Nat} {exponent : Int} (positive : 0 < mantissa)
    (least : -1074 ≤ exponent) (accuracy : Accuracy) :
    0 < (shiftToTargetExponent .binary64 mantissa exponent accuracy).1.mantissa ∧
      (shiftToTargetExponent .binary64 mantissa exponent accuracy).1.mantissa < 2 ^ 53 ∧
      -1074 ≤ (shiftToTargetExponent .binary64 mantissa exponent accuracy).2 := by
  simp only [shiftToTargetExponent, shiftToExponent, mantissa_shiftRight,
    mantissa_ofMantissaAndAccuracy, targetExponent_eq, totalExponent]
  generalize shifted : (max ((mantissa.log2 : Int) + 1 + exponent - 53) (-1074) - exponent).toNat =
    k
  refine ⟨?_, ?_, by omega⟩
  · apply Nat.div_pos _ (Nat.two_pow_pos k)
    calc 2 ^ k ≤ 2 ^ mantissa.log2 := Nat.pow_le_pow_right (by decide) (by omega)
      _ ≤ mantissa := Nat.log2_self_le (by omega)
  · rw [Nat.div_lt_iff_lt_mul (Nat.two_pow_pos k), ← Nat.pow_add]
    calc mantissa < 2 ^ (mantissa.log2 + 1) := Nat.lt_log2_self
      _ ≤ 2 ^ (53 + k) := Nat.pow_le_pow_right (by decide) (by omega)

theorem roundWithAccuracy_nonzero {mantissa : Nat} {exponent : Int} (sign : Sign)
    (positive : 0 < mantissa) (least : -1074 ≤ exponent) (accuracy : Accuracy) :
    ∃ rounded power present, roundWithAccuracy .binary64 sign mantissa exponent accuracy =
      .finite sign rounded power present ∧ rounded < 2 ^ 53 ∧ -1074 ≤ power := by
  obtain ⟨first, -, firstLeast⟩ := shiftToTarget_bounds positive least accuracy
  have grown := le_roundedMantissa (shiftToTargetExponent .binary64 mantissa exponent accuracy).1
  obtain ⟨second, upper, secondLeast⟩ := shiftToTarget_bounds (lt_of_lt_of_le first grown)
    firstLeast .exact
  simp only [roundWithAccuracy]
  rw [dif_neg (Nat.ne_of_gt second)]
  exact ⟨_, _, second, rfl, upper, secondLeast⟩

theorem decode_encode_nonzero {sign : Sign} {mantissa : Nat} {exponent : Int}
    {positive : 0 < mantissa} (upper : mantissa < 2 ^ 53) (least : -1074 ≤ exponent)
    (other : Sign) : decode (encode (.finite sign mantissa exponent positive)) ≠ .zero other := by
  rw [decode_encode_eq, pack_bounded upper]
  split
  · intro same
    have infinite := decode_encode (u := .infinity sign) trivial
    cases infinite.symm.trans same
  · rename_i bounded
    by_cases leading : 2 ^ 52 ≤ mantissa
    · rw [if_pos leading, unpack_components, BitVec.toNat_ofNat]
      rw [if_neg (by omega), if_neg (by omega)]
      nofun
    · have fraction : (BitVec.ofNat 52 mantissa).toNat ≠ 0 := by
        rw [BitVec.toNat_ofNat]
        omega
      rw [if_neg leading, unpack_components, if_neg (by decide), if_pos (by rfl), dif_neg fraction]
      nofun

theorem normalize_ne_negative_zero (mantissa : Int) {exponent : Int} (least : -1074 ≤ exponent) :
    decode (encode (UnpackedFloat.normalize .binary64 mantissa exponent .positive)) ≠
      .zero .negative := by
  have nonzero (sign : Sign) {magnitude : Nat} (positive : 0 < magnitude) :
      decode (encode (UnpackedFloat.round .binary64 sign magnitude exponent)) ≠
        .zero .negative := by
    simp only [UnpackedFloat.round, decreaseExponent, targetExponent_eq]
    generalize shifted : (exponent -
      max (totalExponent magnitude exponent - 53) (-1074)).toNat = k
    have scaled : 0 < magnitude <<< k := by
      rw [Nat.shiftLeft_eq]
      exact Nat.mul_pos positive (Nat.two_pow_pos k)
    obtain ⟨rounded, power, present, run, upper, lower⟩ :=
      roundWithAccuracy_nonzero sign scaled (show -1074 ≤ exponent - k by omega) .exact
    rw [run]
    exact decode_encode_nonzero upper lower .negative
  unfold UnpackedFloat.normalize
  split
  · rename_i negative
    exact nonzero .negative (by rw [Int.compare_eq_lt] at negative; omega)
  · rw [decode_encode (u := .zero .positive) trivial]
    intro impossible
    cases impossible
  · rename_i positive
    exact nonzero .positive (by rw [Int.compare_eq_gt] at positive; omega)

theorem add_ne_negative_zero {x y : Float} (nonzero : decode x ≠ .zero .negative) :
    decode (x + y) ≠ .zero .negative := by
  have xLegal := legal_decode x
  have yLegal := legal_decode y
  rw [add_eq]
  generalize decode x = first at *
  generalize decode y = second at *
  have settled {u : UnpackedFloat} (legal : Legal u) (other : u ≠ .zero .negative) :
      decode (encode u) ≠ .zero .negative := by
    rw [decode_encode legal]
    exact other
  cases first with
  | notANumber => exact settled trivial nofun
  | infinity sign =>
      cases second with
      | infinity other => cases sign <;> cases other <;> exact settled trivial nofun
      | _ => exact settled trivial nofun
  | zero sign =>
      cases second with
      | notANumber => exact settled trivial nofun
      | infinity other => exact settled trivial nofun
      | zero other =>
          cases sign with
          | negative => exact (nonzero rfl).elim
          | positive => cases other <;> exact settled trivial nofun
      | finite other mantissa exponent positive => exact settled yLegal nofun
  | finite sign mantissa exponent positive =>
      cases second with
      | notANumber => exact settled trivial nofun
      | infinity other => exact settled trivial nofun
      | zero other => exact settled xLegal nofun
      | finite other second power present =>
          exact normalize_ne_negative_zero _ (le_min xLegal.2.1 yLegal.2.1)

theorem add_zero_float {x z : Float} (nonzero : decode x ≠ .zero .negative)
    (zero : (z == 0.0) = true) : x + z = x := by
  obtain ⟨sign, zero⟩ := beq_zero_iff_decode.mp zero
  rw [add_eq, zero]
  apply Eq.trans _ (encode_decode x)
  cases decoded : decode x with
  | zero other =>
      cases other with
      | negative => exact (nonzero decoded).elim
      | positive => cases sign <;> rfl
  | _ => rfl

section Sums

variable {α : Type} {items : List α} {addend : α → Float} {total : Float}

theorem foldl_add_ne_negative_zero (nonzero : decode total ≠ .zero .negative) :
    decode (items.foldl (fun sum item => sum + addend item) total) ≠ .zero .negative := by
  apply foldl_invariant (fun sum : Float => decode sum ≠ .zero .negative) nonzero
  intro item _ sum kept
  exact add_ne_negative_zero kept

/-- Sums that start from zero agree when their addends differ at most in the sign of a zero. -/
theorem foldl_add_congr {other : α → Float} (nonzero : decode total ≠ .zero .negative)
    (same : ∀ item ∈ items, addend item = other item ∨
      (addend item == 0.0) = true ∧ (other item == 0.0) = true) :
    items.foldl (fun sum item => sum + addend item) total =
      items.foldl (fun sum item => sum + other item) total := by
  apply foldl_congr_invariant (fun sum : Float => decode sum ≠ .zero .negative) nonzero
  · intro item _ sum kept
    exact add_ne_negative_zero kept
  · intro item member sum kept
    rcases same item member with equal | ⟨zero, otherZero⟩
    · rw [equal]
    · exact (add_zero_float kept zero).trans (add_zero_float kept otherZero).symm

theorem foldl_add_filter {chosen : α → Bool} (nonzero : decode total ≠ .zero .negative)
    (others : ∀ item ∈ items, chosen item = false → (addend item == 0.0) = true) :
    items.foldl (fun sum item => sum + addend item) total =
      (items.filter chosen).foldl (fun sum item => sum + addend item) total := by
  rw [List.foldl_filter]
  apply foldl_congr_invariant (fun sum : Float => decode sum ≠ .zero .negative) nonzero
  · intro item _ sum kept
    exact add_ne_negative_zero kept
  · intro item member sum kept
    cases left : chosen item with
    | true => rw [if_pos rfl]
    | false => rw [if_neg Bool.false_ne_true, add_zero_float kept (others item member left)]

end Sums

end BinaryQuadratic.Binary64
