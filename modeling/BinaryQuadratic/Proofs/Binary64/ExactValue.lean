import BinaryQuadratic.Proofs.Binary64.Arithmetic

/-!
Numbers as rational numbers: what a finite binary64 number stands for, without rounding. Order,
equality and truncation of numbers of both kinds are those of the rational numbers.
-/

namespace BinaryQuadratic

namespace Binary64

open Float.Model (Format UnpackedFloat)
open Float.Model.UnpackedFloat

/-- The value of the parts of a finite number; those of others have none and count as zero. -/
def Parts.exactValue : Parts → ℚ
  | .finite negative mantissa exponent => applySign negative mantissa * 2 ^ exponent
  | _ => 0

def exactValue (x : Float) : ℚ := (parts x).exactValue

theorem parts_of_isFinite {x : Float} (finite : x.isFinite = true) :
    ∃ negative mantissa exponent,
      parts x = .finite negative mantissa exponent ∧ -1074 ≤ exponent := by
  have legal := legal_decode x
  rw [isFinite_eq] at finite
  rw [parts_eq]
  cases decoded : decode x with
  | notANumber => rw [decoded] at finite; cases finite
  | infinity sign => rw [decoded] at finite; cases finite
  | zero sign => exact ⟨isNegative sign, 0, -1074, rfl, Int.le_refl _⟩
  | finite sign mantissa exponent positive =>
      rw [decoded] at legal
      exact ⟨isNegative sign, mantissa, exponent, rfl, legal.2.1⟩

theorem isFinite_of_parts {x : Float} {negative : Bool} {mantissa : Nat} {exponent : Int}
    (finite : parts x = .finite negative mantissa exponent) : x.isFinite = true := by
  rw [parts_eq] at finite
  rw [isFinite_eq]
  cases decoded : decode x with
  | notANumber => rw [decoded] at finite; cases finite
  | infinity sign => rw [decoded] at finite; cases finite
  | zero sign => rfl
  | finite sign mantissa exponent positive => rfl

theorem isNaN_of_isFinite {x : Float} (finite : x.isFinite = true) : x.isNaN = false := by
  rw [isFinite_eq] at finite
  rw [isNaN_eq]
  cases decoded : decode x with
  | notANumber => rw [decoded] at finite; cases finite
  | _ => rfl

theorem applySign_mul (negative : Bool) (m n : Nat) :
    applySign negative (m * n) = applySign negative m * n := by
  cases negative <;> simp [applySign]

theorem applySign_scaleUp (negative : Bool) (mantissa : Nat) (exponent : Int) :
    applySign negative (scaleUp mantissa exponent) =
      applySign negative mantissa * 2 ^ exponent.toNat := by
  rw [scaleUp_eq, applySign_mul]
  norm_cast

theorem zpow_toNat {base : ℚ} (nonzero : base ≠ 0) (exponent : Int) :
    base ^ exponent * base ^ (-exponent).toNat = base ^ exponent.toNat := by
  rw [← zpow_natCast, ← zpow_natCast, ← zpow_add₀ nonzero]
  congr 1
  omega

theorem zpow_split (exponent : Int) :
    (2 : ℚ) ^ exponent * 2 ^ (-exponent).toNat = 2 ^ exponent.toNat := zpow_toNat two_ne_zero _

theorem units_eq_exactValue {x : Float} (finite : x.isFinite = true) :
    (units x : ℚ) = exactValue x * 2 ^ 1074 := by
  obtain ⟨negative, mantissa, exponent, shape, least⟩ := parts_of_isFinite finite
  have split : (2 : ℚ) ^ (exponent + 1074).toNat = 2 ^ exponent * 2 ^ 1074 := by
    rw [← zpow_natCast, ← zpow_natCast, ← zpow_add₀ (by norm_num)]
    congr 1
    omega
  rw [units, exactValue, shape, Parts.units, Parts.exactValue, applySign_scaleUp, mul_assoc,
    ← split]
  norm_cast

theorem lt_iff_exactValue {x y : Float} (xFinite : x.isFinite = true)
    (yFinite : y.isFinite = true) : x < y ↔ exactValue x < exactValue y := by
  have scale : (0 : ℚ) < 2 ^ 1074 := by positivity
  rw [lt_iff, ← Rat.intCast_lt_intCast, units_eq_exactValue xFinite, units_eq_exactValue yFinite,
    mul_lt_mul_iff_left₀ scale, isNaN_of_isFinite xFinite, isNaN_of_isFinite yFinite]
  simp only [true_and]

theorem beq_iff_exactValue {x y : Float} (xFinite : x.isFinite = true)
    (yFinite : y.isFinite = true) : (x == y) = true ↔ exactValue x = exactValue y := by
  have scale : (2 : ℚ) ^ 1074 ≠ 0 := by positivity
  rw [beq_iff, ← Rat.intCast_inj, units_eq_exactValue xFinite, units_eq_exactValue yFinite,
    mul_left_inj' scale, isNaN_of_isFinite xFinite, isNaN_of_isFinite yFinite]
  simp only [true_and]

theorem compare_scaled {a b : Int} {u v scale : ℚ} (positive : 0 < scale)
    (left : (a : ℚ) = u * scale) (right : (b : ℚ) = v * scale) : compare a b = compare u v := by
  rcases lt_trichotomy u v with less | same | greater
  · rw [compare_lt_iff_lt.mpr less, compare_lt_iff_lt, ← Rat.intCast_lt_intCast, left, right]
    exact mul_lt_mul_of_pos_right less positive
  · rw [compare_eq_iff_eq.mpr same, compare_eq_iff_eq, ← Rat.intCast_inj, left, right, same]
  · rw [compare_gt_iff_gt.mpr greater, compare_gt_iff_gt, ← Rat.intCast_lt_intCast, left,
      right]
    exact mul_lt_mul_of_pos_right greater positive

theorem compareInt_eq {x : Float} (finite : x.isFinite = true) (n : Int) :
    compareInt? n x = some (compare (n : ℚ) (exactValue x)) := by
  obtain ⟨negative, mantissa, exponent, shape, -⟩ := parts_of_isFinite finite
  have scale : (0 : ℚ) < 2 ^ (-exponent).toNat := by positivity
  rw [compareInt?, exactValue, shape]
  apply congrArg some
  apply compare_scaled scale
  · simp [scaleUp_eq]
  · rw [applySign_scaleUp, Parts.exactValue, mul_assoc, zpow_split]
    norm_cast

theorem exactValue_zero : exactValue 0.0 = 0 := by
  have shape : parts 0.0 = .finite false 0 (-1074) := by rfl
  simp [exactValue, shape, Parts.exactValue, applySign]

theorem exactValue_zero_add (x : Float) : exactValue (0.0 + x) = exactValue x := by
  by_cases negativeZero : decode x = .zero .negative
  · have zero : x = -0.0 := decode_inj (by rw [negativeZero]; rfl)
    have left : parts (0.0 + -0.0) = .finite false 0 (-1074) := by rfl
    have right : parts (-0.0) = .finite true 0 (-1074) := by rfl
    rw [zero, exactValue, exactValue, left, right]
    simp [Parts.exactValue, applySign]
  · rw [zero_add_float negativeZero]

theorem ratio_magnitude (mantissa : Nat) (exponent : Int) :
    ((scaleUp mantissa exponent : Nat) : ℚ) / (scaleUp 1 (-exponent) : Nat) =
      mantissa * 2 ^ exponent := by
  have scale : (2 : ℚ) ^ (-exponent).toNat ≠ 0 := by positivity
  rw [scaleUp_eq, scaleUp_eq]
  push_cast
  rw [one_mul, div_eq_iff scale, mul_assoc, zpow_split]

theorem wholePart_eq_floor (mantissa : Nat) (exponent : Int) :
    (wholePart mantissa exponent : Int) = ⌊(mantissa : ℚ) * 2 ^ exponent⌋ := by
  rw [← ratio_magnitude, wholePart, Rat.floor_natCast_div_natCast]
  norm_cast

theorem wholePart_eq {mantissa : Nat} {exponent : Int} (whole : isWhole mantissa exponent = true) :
    (wholePart mantissa exponent : ℚ) = mantissa * 2 ^ exponent := by
  have divides : scaleUp 1 (-exponent) ∣ scaleUp mantissa exponent :=
    Nat.dvd_of_mod_eq_zero (of_decide_eq_true whole)
  rw [← ratio_magnitude, wholePart, Nat.cast_div_charZero divides]

end Binary64

namespace Number

open Binary64

inductive HasValue : Number → ℚ → Prop
  | int (n : Int) : HasValue (.int n) n
  | float {x : Float} (finite : x.isFinite = true) : HasValue (.float x) (exactValue x)

theorem compareFloats_eq {x y : Float} (xFinite : x.isFinite = true) (yFinite : y.isFinite = true) :
    (if x < y then some Ordering.lt else if y < x then some .gt else
      if x == y then some .eq else none) = some (compare (exactValue x) (exactValue y)) := by
  simp only [lt_iff_exactValue xFinite yFinite, lt_iff_exactValue yFinite xFinite,
    beq_iff_exactValue xFinite yFinite]
  rcases lt_trichotomy (exactValue x) (exactValue y) with less | same | greater
  · rw [if_pos less, compare_lt_iff_lt.mpr less]
  · rw [if_neg same.not_lt, if_neg same.not_gt, if_pos same, compare_eq_iff_eq.mpr same]
  · rw [if_neg greater.not_gt, if_pos greater, compare_gt_iff_gt.mpr greater]

theorem compare_eq {a b : Number} {v w : ℚ} (aValue : a.HasValue v) (bValue : b.HasValue w) :
    a.compare? b = some (compare v w) := by
  cases aValue with
  | int m =>
      cases bValue with
      | int n =>
          apply congrArg some
          exact compare_scaled one_pos (by simp) (by simp)
      | float finite => exact compareInt_eq finite m
  | float finite =>
      cases bValue with
      | int n =>
          rw [compare?, compareInt_eq finite, Option.map_some, ← Std.OrientedOrd.eq_swap]
      | float other =>
          rw [compare?, compareFloats_eq finite other]

theorem less_iff {a b : Number} {v w : ℚ} (aValue : a.HasValue v) (bValue : b.HasValue w) :
    a.less b = true ↔ v < w := by
  rw [less, compare_eq aValue bValue, beq_iff_eq, Option.some.injEq, compare_lt_iff_lt]

theorem equals_iff {a b : Number} {v w : ℚ} (aValue : a.HasValue v) (bValue : b.HasValue w) :
    a.equals b = true ↔ v = w := by
  rw [equals, compare_eq aValue bValue, beq_iff_eq, Option.some.injEq, compare_eq_iff_eq]

theorem inRange_iff {a : Number} {v : ℚ} (value : a.HasValue v) (size : Int) :
    a.inRange size = true ↔ 0 ≤ v ∧ v < size := by
  rw [inRange, lessOrEqual, Bool.and_eq_true, Bool.or_eq_true, less_iff (.int 0) value,
    equals_iff (.int 0) value, less_iff value (.int size), Int.cast_zero, ← le_iff_lt_or_eq]

theorem value_of_inRange {a : Number} {size : Int} (within : a.inRange size = true) :
    ∃ v, a.HasValue v ∧ 0 ≤ v ∧ v < size := by
  have valued : ∃ v, a.HasValue v := by
    cases a with
    | int n => exact ⟨n, .int n⟩
    | float x =>
        cases shape : parts x with
        | notANumber =>
            simp [inRange, lessOrEqual, less, equals, compare?, compareInt?, shape] at within
        | infinite negative =>
            cases negative <;>
              simp [inRange, lessOrEqual, less, equals, compare?, compareInt?, shape] at within
        | finite negative mantissa exponent => exact ⟨_, .float (isFinite_of_parts shape)⟩
  obtain ⟨v, value⟩ := valued
  exact ⟨v, value, (inRange_iff value size).mp within⟩

theorem truncate_eq_floor {a : Number} {v : ℚ} (value : a.HasValue v) (nonnegative : 0 ≤ v) :
    a.truncate = .ok ⌊v⌋ := by
  cases value with
  | int n => rw [truncate, Int.floor_intCast]
  | float finite =>
      obtain ⟨negative, mantissa, exponent, shape, -⟩ := parts_of_isFinite finite
      rw [exactValue, shape, Parts.exactValue] at nonnegative ⊢
      rw [truncate, shape]
      cases negative with
      | false => simp only [applySign, Bool.false_eq_true, if_false, wholePart_eq_floor,
          Int.cast_natCast]
      | true =>
          have scale : (0 : ℚ) < 2 ^ exponent := zpow_pos (by norm_num) exponent
          have none : mantissa = 0 := by
            by_contra some
            have positive : (0 : ℚ) < mantissa := by exact_mod_cast Nat.pos_of_ne_zero some
            have product := mul_pos positive scale
            simp only [applySign, if_true, Int.cast_neg, Int.cast_natCast, neg_mul] at nonnegative
            linarith
          subst none
          simp [applySign, wholePart, scaleUp_eq]

end Number

end BinaryQuadratic
