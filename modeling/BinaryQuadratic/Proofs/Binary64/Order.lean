import BinaryQuadratic.Proofs.Binary64.Decoding

/-!
The order of binary64 numbers. Every number is a whole multiple of the least positive one, so
that numbers are ordered and equal as these multiples are.
-/

namespace BinaryQuadratic.Binary64

open Float.Model (Format UnpackedFloat)
open Float.Model.UnpackedFloat

def infiniteUnits : Nat := scaleUp 1 2098

def Parts.units : Parts → Int
  | .notANumber => 0
  | .infinite negative => applySign negative infiniteUnits
  | .finite negative mantissa exponent => applySign negative (scaleUp mantissa (exponent + 1074))

def units (x : Float) : Int := (parts x).units

theorem scaleUp_eq (mantissa : Nat) (exponent : Int) :
    scaleUp mantissa exponent = mantissa * 2 ^ exponent.toNat := rfl

theorem scaleUp_positive {mantissa : Nat} (positive : 0 < mantissa) (exponent : Int) :
    0 < scaleUp mantissa exponent :=
  Nat.mul_pos positive (Nat.two_pow_pos _)

theorem scaleUp_lt_infinite {mantissa : Nat} {exponent : Int} (upper : mantissa < 2 ^ 53)
    (most : exponent ≤ 971) : scaleUp mantissa (exponent + 1074) < infiniteUnits := by
  have digits : 53 + (exponent + 1074).toNat ≤ (2098 : Int).toNat := by omega
  calc scaleUp mantissa (exponent + 1074)
      < 2 ^ 53 * 2 ^ (exponent + 1074).toNat :=
        Nat.mul_lt_mul_of_pos_right upper (Nat.two_pow_pos _)
    _ = 2 ^ (53 + (exponent + 1074).toNat) := (Nat.pow_add ..).symm
    _ ≤ 2 ^ (2098 : Int).toNat := Nat.pow_le_pow_right (by decide) digits
    _ = infiniteUnits := by rw [infiniteUnits, scaleUp_eq, Nat.one_mul]

theorem scaleUp_lt_of_exponent {first second : Nat} {low high : Int} (least : -1074 ≤ low)
    (order : low < high) (upper : first < 2 ^ 53) (leading : 2 ^ 52 ≤ second) :
    scaleUp first (low + 1074) < scaleUp second (high + 1074) := by
  calc scaleUp first (low + 1074)
      < 2 ^ 53 * 2 ^ (low + 1074).toNat := Nat.mul_lt_mul_of_pos_right upper (Nat.two_pow_pos _)
    _ = 2 ^ 52 * 2 ^ (1 + (low + 1074).toNat) := by
        rw [Nat.pow_add 2 1, ← Nat.mul_assoc, ← Nat.pow_add 2 52 1]
    _ ≤ 2 ^ 52 * 2 ^ (high + 1074).toNat :=
        Nat.mul_le_mul_left _ (Nat.pow_le_pow_right (by decide) (by omega))
    _ ≤ scaleUp second (high + 1074) := Nat.mul_le_mul_right _ leading

theorem compare_magnitudes {first second : Nat} {low high : Int}
    (firstUpper : first < 2 ^ 53) (firstLeast : -1074 ≤ low)
    (firstNormal : 2 ^ 52 ≤ first ∨ low = -1074)
    (secondUpper : second < 2 ^ 53) (secondLeast : -1074 ≤ high)
    (secondNormal : 2 ^ 52 ≤ second ∨ high = -1074) :
    (compare low high).then (compare first second) =
      compare (scaleUp first (low + 1074)) (scaleUp second (high + 1074)) := by
  rcases Int.lt_trichotomy low high with order | same | order
  · have less := scaleUp_lt_of_exponent firstLeast order firstUpper (by omega : 2 ^ 52 ≤ second)
    rw [Int.compare_eq_lt.mpr order, Nat.compare_eq_lt.mpr less]
    rfl
  · subst high
    rw [Int.compare_eq_eq.mpr rfl]
    have positive := Nat.two_pow_pos (low + 1074).toNat
    rcases Nat.lt_trichotomy first second with order | same | order
    · have less := Nat.mul_lt_mul_of_pos_right order positive
      rw [Nat.compare_eq_lt.mpr order, scaleUp_eq, scaleUp_eq, Nat.compare_eq_lt.mpr less]
      rfl
    · subst second
      rw [Nat.compare_eq_eq.mpr rfl, Nat.compare_eq_eq.mpr rfl]
      rfl
    · have less := Nat.mul_lt_mul_of_pos_right order positive
      rw [Nat.compare_eq_gt.mpr order, scaleUp_eq, scaleUp_eq, Nat.compare_eq_gt.mpr less]
      rfl
  · have less := scaleUp_lt_of_exponent secondLeast order secondUpper (by omega : 2 ^ 52 ≤ first)
    rw [Int.compare_eq_gt.mpr order, Nat.compare_eq_gt.mpr less]
    rfl

theorem units_zero (sign : Sign) : (partsOf (.zero sign)).units = 0 := by
  cases sign <;> simp [partsOf, Parts.units, isNegative, applySign, scaleUp_eq]

theorem units_infinity (sign : Sign) :
    (partsOf (.infinity sign)).units = sign.apply infiniteUnits := by
  cases sign <;> rfl

theorem units_finite (sign : Sign) (mantissa : Nat) (exponent : Int) (positive : 0 < mantissa) :
    (partsOf (.finite sign mantissa exponent positive)).units =
      sign.apply (scaleUp mantissa (exponent + 1074)) := by
  cases sign <;> rfl

theorem compare_finite {sign : Sign} {first second : Nat} {low high : Int}
    {firstPositive : 0 < first} {secondPositive : 0 < second}
    (firstLegal : Legal (.finite sign first low firstPositive))
    (secondLegal : Legal (.finite sign second high secondPositive)) :
    (UnpackedFloat.finite sign first low firstPositive).compare
        (.finite sign second high secondPositive) =
      some (match sign with
        | .positive => compare (scaleUp first (low + 1074)) (scaleUp second (high + 1074))
        | .negative => compare (scaleUp second (high + 1074)) (scaleUp first (low + 1074))) := by
  obtain ⟨firstUpper, firstLeast, -, firstNormal⟩ := firstLegal
  obtain ⟨secondUpper, secondLeast, -, secondNormal⟩ := secondLegal
  have magnitudes := compare_magnitudes firstUpper firstLeast firstNormal secondUpper secondLeast
    secondNormal
  cases sign with
  | positive => exact congrArg some magnitudes
  | negative =>
      change some ((compare low high).then (compare first second)).swap = _
      rw [magnitudes, Nat.compare_swap]

/-- Both orders, of the numbers and of the multiples that they are, put two numbers alike. -/
def ComparedByUnits (first second : UnpackedFloat) : Prop :=
  (first.compare second = some .lt ↔ (partsOf first).units < (partsOf second).units) ∧
    (first.compare second = some .eq ↔ (partsOf first).units = (partsOf second).units)

theorem infiniteUnits_positive : 0 < infiniteUnits := scaleUp_positive (by decide) 2098

theorem compare_infinity {second : UnpackedFloat} (sign : Sign) (secondLegal : Legal second)
    (secondNumber : second.isNaN = false) : ComparedByUnits (.infinity sign) second := by
  have infinite := infiniteUnits_positive
  rw [ComparedByUnits, units_infinity]
  cases second with
  | notANumber => cases secondNumber
  | infinity other =>
      rw [units_infinity]
      generalize infiniteUnits = limit at *
      cases sign <;> cases other <;> simp [UnpackedFloat.compare, compare, Sign.apply] <;> omega
  | zero other =>
      rw [units_zero]
      generalize infiniteUnits = limit at *
      cases sign <;> simp [UnpackedFloat.compare, Sign.apply] <;> omega
  | finite other mantissa exponent positive =>
      have bound := scaleUp_lt_infinite secondLegal.1 secondLegal.2.2.1
      rw [units_finite]
      generalize infiniteUnits = limit at *
      cases sign <;> cases other <;> simp [UnpackedFloat.compare, Sign.apply] <;> omega

theorem compare_zero {second : UnpackedFloat} (sign : Sign)
    (secondNumber : second.isNaN = false) : ComparedByUnits (.zero sign) second := by
  have infinite := infiniteUnits_positive
  rw [ComparedByUnits, units_zero]
  cases second with
  | notANumber => cases secondNumber
  | infinity other =>
      rw [units_infinity]
      generalize infiniteUnits = limit at *
      cases other <;> simp [UnpackedFloat.compare, Sign.apply] <;> omega
  | zero other => simp [UnpackedFloat.compare, units_zero]
  | finite other mantissa exponent positive =>
      have present := scaleUp_positive positive (exponent + 1074)
      rw [units_finite]
      cases other <;> simp [UnpackedFloat.compare, Sign.apply] <;> omega

theorem compare_nonzero {second : UnpackedFloat} {sign : Sign} {mantissa : Nat} {exponent : Int}
    {positive : 0 < mantissa} (firstLegal : Legal (.finite sign mantissa exponent positive))
    (secondLegal : Legal second) (secondNumber : second.isNaN = false) :
    ComparedByUnits (.finite sign mantissa exponent positive) second := by
  have bound := scaleUp_lt_infinite firstLegal.1 firstLegal.2.2.1
  have present := scaleUp_positive positive (exponent + 1074)
  rw [ComparedByUnits, units_finite]
  cases second with
  | notANumber => cases secondNumber
  | infinity other =>
      rw [units_infinity]
      generalize infiniteUnits = limit at *
      cases sign <;> cases other <;> simp [UnpackedFloat.compare, Sign.apply] <;> omega
  | zero other =>
      rw [units_zero]
      cases sign <;> simp [UnpackedFloat.compare, Sign.apply] <;> omega
  | finite other mantissa exponent positive =>
      have otherPresent := scaleUp_positive positive (exponent + 1074)
      rw [units_finite]
      cases sign <;> cases other
      · rw [compare_finite firstLegal secondLegal]
        simp only [Sign.apply, Option.some.injEq, Nat.compare_eq_lt, Nat.compare_eq_eq]
        omega
      · simp [UnpackedFloat.compare, Sign.apply]
        omega
      · simp [UnpackedFloat.compare, Sign.apply]
        omega
      · rw [compare_finite firstLegal secondLegal]
        simp only [Sign.apply, Option.some.injEq, Nat.compare_eq_lt, Nat.compare_eq_eq]
        omega

theorem compare_units {first second : UnpackedFloat} (firstLegal : Legal first)
    (secondLegal : Legal second) (firstNumber : first.isNaN = false)
    (secondNumber : second.isNaN = false) : ComparedByUnits first second := by
  cases first with
  | notANumber => cases firstNumber
  | infinity sign => exact compare_infinity sign secondLegal secondNumber
  | zero sign => exact compare_zero sign secondNumber
  | finite sign mantissa exponent positive =>
      exact compare_nonzero firstLegal secondLegal secondNumber

theorem lt_iff_compare (x y : Float) : x < y ↔ (decode x).compare (decode y) = some .lt := by
  change decide ((decode x).lt (decode y) = true) = true ↔ _
  simp [UnpackedFloat.lt]

theorem beq_iff_compare (x y : Float) :
    (x == y) = true ↔ (decode x).compare (decode y) = some .eq := by
  change (decode x).beq (decode y) = true ↔ _
  simp [UnpackedFloat.beq]

theorem le_iff_lt_or_beq (x y : Float) : x ≤ y ↔ x < y ∨ (x == y) = true := by
  rw [lt_iff_compare, beq_iff_compare]
  change decide ((decode x).le (decode y) = true) = true ↔ _
  cases outcome : (decode x).compare (decode y) with
  | none => simp [UnpackedFloat.le, outcome]
  | some order => cases order <;> simp [UnpackedFloat.le, outcome]

theorem beq_zero_iff (x : Float) : (x == 0.0) = true ↔ x = 0.0 ∨ x = -0.0 := by
  constructor
  · intro same
    rw [beq_iff_compare, show decode 0.0 = .zero .positive from rfl] at same
    cases decoded : decode x with
    | zero sign =>
        cases sign with
        | positive => exact .inl (decode_inj (by rw [decoded]; rfl))
        | negative => exact .inr (decode_inj (by rw [decoded]; rfl))
    | notANumber => rw [decoded] at same; cases same
    | infinity sign => rw [decoded] at same; cases sign <;> cases same
    | finite sign mantissa exponent positive => rw [decoded] at same; cases sign <;> cases same
  · rintro (rfl | rfl)
    · rfl
    · rfl

theorem beq_zero_iff_decode {x : Float} :
    (x == 0.0) = true ↔ ∃ sign, decode x = .zero sign := by
  rw [beq_zero_iff]
  constructor
  · rintro (rfl | rfl)
    · exact ⟨_, rfl⟩
    · exact ⟨_, rfl⟩
  · rintro ⟨sign, decoded⟩
    cases sign with
    | positive => exact .inl (decode_inj decoded)
    | negative => exact .inr (decode_inj decoded)

theorem eq_of_compare {first second : UnpackedFloat} (same : first.compare second = some .eq) :
    first = second ∨ ∃ sign other, first = .zero sign ∧ second = .zero other := by
  cases first with
  | notANumber => cases same
  | zero sign =>
      cases second with
      | zero other => exact .inr ⟨sign, other, rfl, rfl⟩
      | notANumber => cases same
      | infinity other => cases other <;> cases same
      | finite other mantissa exponent positive => cases other <;> cases same
  | infinity sign =>
      cases second with
      | infinity other => cases sign <;> cases other <;> simp_all [UnpackedFloat.compare]
      | _ => cases sign <;> cases same
  | finite sign mantissa exponent positive =>
      cases second with
      | notANumber => cases same
      | infinity other => cases other <;> cases same
      | zero other => cases sign <;> cases same
      | finite other second power present =>
          cases sign <;> cases other <;> simp_all [UnpackedFloat.compare]

theorem eq_or_zeros_of_beq {x y : Float} (same : (x == y) = true) :
    x = y ∨ (x == 0.0) = true ∧ (y == 0.0) = true := by
  rw [beq_iff_compare] at same
  rcases eq_of_compare same with equal | ⟨sign, other, first, second⟩
  · exact .inl (decode_inj equal)
  · rw [beq_iff_compare, beq_iff_compare, first, second]
    exact .inr ⟨rfl, rfl⟩

theorem compare_notANumber {first second : UnpackedFloat}
    (unordered : first.isNaN = true ∨ second.isNaN = true) : first.compare second = none := by
  cases first <;> cases second <;> simp_all [UnpackedFloat.isNaN, UnpackedFloat.compare]

theorem lt_iff (x y : Float) :
    x < y ↔ x.isNaN = false ∧ y.isNaN = false ∧ units x < units y := by
  rw [lt_iff_compare, isNaN_eq, isNaN_eq, units, units, parts_eq, parts_eq]
  cases first : (decode x).isNaN with
  | true => simp [compare_notANumber (.inl first)]
  | false =>
      cases second : (decode y).isNaN with
      | true => simp [compare_notANumber (.inr second)]
      | false => simp [(compare_units (legal_decode x) (legal_decode y) first second).1]

theorem beq_iff (x y : Float) :
    (x == y) = true ↔ x.isNaN = false ∧ y.isNaN = false ∧ units x = units y := by
  rw [beq_iff_compare, isNaN_eq, isNaN_eq, units, units, parts_eq, parts_eq]
  cases first : (decode x).isNaN with
  | true => simp [compare_notANumber (.inl first)]
  | false =>
      cases second : (decode y).isNaN with
      | true => simp [compare_notANumber (.inr second)]
      | false => simp [(compare_units (legal_decode x) (legal_decode y) first second).2]

theorem beq_self_iff (x : Float) : (x == x) = true ↔ x.isNaN = false := by
  rw [beq_iff]
  simp

end BinaryQuadratic.Binary64
