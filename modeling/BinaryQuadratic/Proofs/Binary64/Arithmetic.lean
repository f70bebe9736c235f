import BinaryQuadratic.Number
import BinaryQuadratic.Proofs.Binary64.Order

/-!
Sums and products of binary64 numbers where nothing is rounded: factors one and zero, a summand
zero. A sum is a number wherever its summands do not cancel infinities.
-/

namespace BinaryQuadratic.Binary64

open Float.Model (Format UnpackedFloat totalExponent)
open Float.Model.UnpackedFloat

theorem log2_mul_two_pow {n : Nat} (positive : 0 < n) (k : Nat) :
    (n * 2 ^ k).log2 = n.log2 + k := by
  induction k with
  | zero => simp
  | succ k ih =>
      have scaled : n * 2 ^ k ≠ 0 := Nat.ne_of_gt (Nat.mul_pos positive (Nat.two_pow_pos k))
      rw [Nat.pow_succ, ← Nat.mul_assoc, Nat.mul_comm, Nat.log2_two_mul scaled, ih, Nat.add_assoc]

theorem targetExponent_legal {sign : Sign} {mantissa : Nat} {exponent : Int}
    {positive : 0 < mantissa} (legal : Legal (.finite sign mantissa exponent positive)) :
    Format.binary64.targetExponent (totalExponent mantissa exponent) = exponent := by
  obtain ⟨upper, least, -, normal⟩ := legal
  have below : mantissa.log2 < 53 := (Nat.log2_lt (by omega)).mpr upper
  have above := Nat.le_log2 (n := mantissa) (k := 52) (by omega)
  rw [targetExponent_eq, totalExponent]
  omega

theorem shiftRight_exact (mantissa k : Nat) :
    ExtendedMantissa.mk (mantissa * 2 ^ k) false false >>> k = ⟨mantissa, false, false⟩ := by
  change Nat.repeat ExtendedMantissa.shiftRightOne k _ = _
  induction k generalizing mantissa with
  | zero => simp [Nat.repeat]
  | succ k ih =>
      rw [Nat.pow_succ', ← Nat.mul_assoc, Nat.repeat, ih]
      simp [ExtendedMantissa.shiftRightOne]

theorem shiftToTarget_exact {sign : Sign} {mantissa : Nat} {exponent : Int}
    {positive : 0 < mantissa} (legal : Legal (.finite sign mantissa exponent positive)) (k : Nat) :
    shiftToTargetExponent .binary64 (mantissa * 2 ^ k) (exponent - k) .exact =
      (⟨mantissa, false, false⟩, exponent) := by
  have total : totalExponent (mantissa * 2 ^ k) (exponent - k) =
      totalExponent mantissa exponent := by
    rw [totalExponent, totalExponent, log2_mul_two_pow positive]
    omega
  have shift : (exponent - (exponent - k)).toNat = k := by omega
  simp only [shiftToTargetExponent, total, targetExponent_legal legal, shiftToExponent, shift,
    ExtendedMantissa.ofMantissaAndAccuracy, shiftRight_exact, Prod.mk.injEq, true_and]
  omega

/-- Rounding keeps a value of one of the decoded forms, whatever exponent below its own it is
given at. -/
theorem roundWithAccuracy_exact {sign : Sign} {mantissa : Nat} {exponent : Int}
    {positive : 0 < mantissa} (legal : Legal (.finite sign mantissa exponent positive)) (k : Nat) :
    roundWithAccuracy .binary64 sign (mantissa * 2 ^ k) (exponent - k) .exact =
      .finite sign mantissa exponent positive := by
  have rounded : ExtendedMantissa.roundedMantissa ⟨mantissa, false, false⟩ = mantissa := rfl
  have again := shiftToTarget_exact legal 0
  simp only [Nat.pow_zero, Nat.mul_one, Int.natCast_zero, Int.sub_zero] at again
  simp only [roundWithAccuracy, shiftToTarget_exact legal k, rounded, again]
  rw [dif_neg (by omega)]

theorem decode_zero : decode 0.0 = .zero .positive := rfl

theorem decode_one : decode 1.0 = .finite .positive (2 ^ 52) (-52) (by decide) := rfl

theorem toFloat_zero : (Number.int 0).toFloat = .ok 0.0 := rfl

theorem toFloat_one : (Number.int 1).toFloat = .ok 1.0 := rfl

theorem positive_mul (sign : Sign) : Sign.positive * sign = sign := by
  cases sign <;> rfl

theorem mul_positive (sign : Sign) : sign * Sign.positive = sign := by
  cases sign <;> rfl

theorem one_mul_float (x : Float) : 1.0 * x = x := by
  have legal := legal_decode x
  rw [mul_eq, decode_one]
  apply Eq.trans _ (encode_decode x)
  cases decoded : decode x with
  | notANumber => rfl
  | infinity sign => cases sign <;> rfl
  | zero sign => cases sign <;> rfl
  | finite sign mantissa exponent positive =>
      rw [decoded] at legal
      rw [UnpackedFloat.mul, positive_mul, Nat.mul_comm, Int.add_comm]
      exact congrArg encode (roundWithAccuracy_exact legal 52)

theorem mul_one_float (x : Float) : x * 1.0 = x := by
  have legal := legal_decode x
  rw [mul_eq, decode_one]
  apply Eq.trans _ (encode_decode x)
  cases decoded : decode x with
  | notANumber => rfl
  | infinity sign => cases sign <;> rfl
  | zero sign => cases sign <;> rfl
  | finite sign mantissa exponent positive =>
      rw [decoded] at legal
      rw [UnpackedFloat.mul, mul_positive]
      exact congrArg encode (roundWithAccuracy_exact legal 52)

theorem decode_mul_zero {x : Float} (finite : x.isFinite = true) :
    ∃ sign, decode (x * 0.0) = .zero sign := by
  rw [isFinite_eq] at finite
  rw [mul_eq, decode_zero]
  cases decoded : decode x with
  | notANumber => rw [decoded] at finite; cases finite
  | infinity sign => rw [decoded] at finite; cases finite
  | zero sign =>
      rw [UnpackedFloat.mul, mul_positive]
      exact ⟨sign, decode_encode (u := .zero sign) trivial⟩
  | finite sign mantissa exponent positive =>
      rw [UnpackedFloat.mul, mul_positive]
      exact ⟨sign, decode_encode (u := .zero sign) trivial⟩

theorem isNaN_infinite_mul_zero {x : Float} (infinite : x.isInf = true) :
    (x * 0.0).isNaN = true := by
  change (decode x).isInf = true at infinite
  rw [mul_eq, decode_zero, isNaN_encode]
  cases decoded : decode x with
  | infinity sign => rfl
  | _ => rw [decoded] at infinite; cases infinite

theorem isNaN_round (sign : Sign) (mantissa : Nat) (exponent : Int) :
    (UnpackedFloat.round .binary64 sign mantissa exponent).isNaN = false := by
  simp only [UnpackedFloat.round, roundWithAccuracy]
  split <;> rfl

theorem isNaN_normalize (mantissa exponent : Int) (sign : Sign) :
    (UnpackedFloat.normalize .binary64 mantissa exponent sign).isNaN = false := by
  unfold UnpackedFloat.normalize
  split
  · exact isNaN_round ..
  · rfl
  · exact isNaN_round ..

theorem isNaN_add_finite {x y : Float} (number : x.isNaN = false) (finite : y.isFinite = true) :
    (x + y).isNaN = false := by
  rw [isNaN_eq] at number
  rw [isFinite_eq] at finite
  rw [add_eq, isNaN_encode]
  generalize decode x = first at *
  generalize decode y = second at *
  cases second with
  | notANumber => cases finite
  | infinity other => cases finite
  | zero other =>
      cases first with
      | notANumber => cases number
      | infinity sign => rfl
      | zero sign => cases sign <;> cases other <;> rfl
      | finite sign mantissa exponent positive => rfl
  | finite other mantissa exponent positive =>
      cases first with
      | notANumber => cases number
      | infinity sign => rfl
      | zero sign => rfl
      | finite sign mantissa exponent positive => exact isNaN_normalize ..

theorem isNaN_add_of_isNaN {x y : Float} (unordered : x.isNaN = true ∨ y.isNaN = true) :
    (x + y).isNaN = true := by
  rw [isNaN_eq, isNaN_eq] at unordered
  rw [add_eq, isNaN_encode]
  generalize decode x = first at *
  generalize decode y = second at *
  rcases unordered with left | right
  · cases first with
    | notANumber => rfl
    | _ => cases left
  · cases second with
    | notANumber => cases first <;> rfl
    | _ => cases right

theorem zero_add_float {x : Float} (nonzero : decode x ≠ .zero .negative) : 0.0 + x = x := by
  rw [add_eq, decode_zero]
  apply Eq.trans _ (encode_decode x)
  cases decoded : decode x with
  | zero sign =>
      cases sign with
      | negative => exact (nonzero decoded).elim
      | positive => rfl
  | _ => rfl

end BinaryQuadratic.Binary64
