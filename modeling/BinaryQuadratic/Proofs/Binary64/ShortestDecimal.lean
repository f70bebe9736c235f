import BinaryQuadratic.Number.Shortest
import BinaryQuadratic.Proofs.Binary64.Fields
import BinaryQuadratic.Proofs.Binary64.NearestRatio

/-!
The shortest decimal of a number reads back to that number. The search for it stops at seventeen
digits at the latest, since those are always close enough.
-/

namespace BinaryQuadratic.Binary64

def Decimal.value (d : Decimal) : ℚ := d.digits * 10 ^ d.exponent

theorem ratio_decimal (digits : Nat) (exponent : Int) :
    ((digits * Nat.pow 10 exponent.toNat : Nat) : ℚ) / (Nat.pow 10 (-exponent).toNat : Nat) =
      digits * 10 ^ exponent := by
  have scale : (10 : ℚ) ^ (-exponent).toNat ≠ 0 := by positivity
  simp only [Nat.pow_eq]
  push_cast
  rw [div_eq_iff scale, mul_assoc, zpow_toNat (by norm_num)]

theorem Decimal.magnitudeBits_of_value {num den : Nat} {d : Decimal} (positive : 0 < den)
    (same : (num : ℚ) / den = d.value) : d.magnitudeBits = Binary64.magnitudeBits num den := by
  have scale : 0 < Nat.pow 10 (-d.exponent).toNat := Nat.pow_pos (by decide)
  apply magnitudeBits_congr scale positive
  rw [ratio_decimal, same, Decimal.value]

theorem decimalLength_positive (n : Nat) : 0 < decimalLength n := by
  unfold decimalLength
  split <;> omega

theorem pow_decimalLength_le {n : Nat} (positive : 0 < n) : 10 ^ (decimalLength n - 1) ≤ n := by
  fun_induction decimalLength n with
  | case1 n small => exact positive
  | case2 n large ih =>
      have shorter := ih (by omega)
      have length := decimalLength_positive (n / 10)
      rw [Nat.add_sub_cancel, ← Nat.sub_one_add_one length.ne', Nat.pow_succ]
      omega

theorem lt_pow_decimalLength (n : Nat) : n < 10 ^ decimalLength n := by
  fun_induction decimalLength n with
  | case1 n small => simpa using small
  | case2 n large ih =>
      rw [Nat.pow_succ]
      omega

theorem pow_leadingPosition_le {num den : Nat} (numPositive : 0 < num) (denPositive : 0 < den) :
    (10 : ℚ) ^ leadingPosition num den ≤ num / den := by
  have room : (0 : ℚ) < den := by exact_mod_cast denPositive
  rw [le_div_iff₀ room, leadingPosition]
  split
  · rename_i above
    have length := decimalLength_positive (num / den)
    have power : (10 : ℚ) ^ ((decimalLength (num / den) : Int) - 1) =
        (10 ^ (decimalLength (num / den) - 1) : Nat) := by
      rw [Nat.cast_pow, Nat.cast_ofNat, ← zpow_natCast, Nat.cast_pred length]
    have whole : 10 ^ (decimalLength (num / den) - 1) * den ≤ num :=
      calc 10 ^ (decimalLength (num / den) - 1) * den
          ≤ num / den * den :=
            Nat.mul_le_mul_right den (pow_decimalLength_le (Nat.div_pos above denPositive))
        _ ≤ num := Nat.div_mul_le_self num den
    rw [power]
    exact_mod_cast whole
  · have length := decimalLength_positive (den / num)
    dsimp only
    split
    · rename_i reached
      have power : (10 : ℚ) ^ (1 - (decimalLength (den / num) : Int)) =
          ((10 ^ (decimalLength (den / num) - 1) : Nat) : ℚ)⁻¹ := by
        rw [Nat.cast_pow, Nat.cast_ofNat, ← zpow_natCast, Nat.cast_pred length, ← zpow_neg, neg_sub]
      rw [power, inv_mul_le_iff₀ (by positivity), mul_comm]
      exact_mod_cast reached
    · have power : (10 : ℚ) ^ (-(decimalLength (den / num) : Int)) =
          ((10 ^ decimalLength (den / num) : Nat) : ℚ)⁻¹ := by
        rw [Nat.cast_pow, Nat.cast_ofNat, zpow_neg, zpow_natCast]
      have bound : den ≤ 10 ^ decimalLength (den / num) * num :=
        calc den ≤ (den / num + 1) * num := ((Nat.div_lt_iff_lt_mul numPositive).mp (Nat.lt_succ_self _)).le
          _ ≤ 10 ^ decimalLength (den / num) * num :=
            Nat.mul_le_mul_right num (lt_pow_decimalLength (den / num))
      rw [power, inv_mul_le_iff₀ (by positivity)]
      exact_mod_cast bound

theorem ratio_atPosition (num den : Nat) (position : Int) :
    ((atPosition num den position).1 : ℚ) / (atPosition num den position).2 =
      num / den / 10 ^ position := by
  have scale : (10 : ℚ) ^ (-position).toNat ≠ 0 := by positivity
  simp only [atPosition, Nat.pow_eq]
  push_cast
  rw [← zpow_toNat (by norm_num : (10 : ℚ) ≠ 0) position]
  field_simp

theorem neighbours_head {num den : Nat} (denPositive : 0 < den) (position : Int) :
    ∃ digits rest, neighbours num den position = ⟨digits, position⟩ :: rest ∧
      |(digits : ℚ) - num / den / 10 ^ position| ≤ 1 / 2 := by
  rw [← ratio_atPosition]
  have room : 0 < (atPosition num den position).2 :=
    Nat.mul_pos denPositive (Nat.pow_pos (by decide))
  unfold neighbours
  generalize atPosition num den position = scaled at room ⊢
  obtain ⟨n, d⟩ := scaled
  dsimp only at room ⊢
  have positive : (0 : ℚ) < d := by exact_mod_cast room
  obtain ⟨fraction, part⟩ : ∃ fraction : ℚ, ((n % d : Nat) : ℚ) / d = fraction := ⟨_, rfl⟩
  have value : (n : ℚ) / d = (n / d : Nat) + fraction := by
    have split : (d : ℚ) * (n / d : Nat) + (n % d : Nat) = n := by
      exact_mod_cast Nat.div_add_mod n d
    rw [← part, ← split]
    field_simp
  have least : 0 ≤ fraction := by
    rw [← part]
    positivity
  have most : fraction ≤ 1 := by
    rw [← part, div_le_one positive]
    exact_mod_cast (Nat.mod_lt n room).le
  rw [value]
  split
  · rename_i lower
    refine ⟨_, _, rfl, ?_⟩
    have half : fraction ≤ 1 / 2 := by
      have twice : 2 * (n % d) ≤ d := by
        simp only [Bool.or_eq_true, Bool.and_eq_true, decide_eq_true_eq] at lower
        omega
      rw [← part, div_le_div_iff₀ positive two_pos, one_mul, mul_comm]
      exact_mod_cast twice
    rw [abs_le]
    constructor <;> linarith
  · rename_i upper
    refine ⟨_, _, rfl, ?_⟩
    have half : 1 / 2 ≤ fraction := by
      have twice : d ≤ 2 * (n % d) := by
        simp only [Bool.or_eq_true, Bool.and_eq_true, decide_eq_true_eq] at upper
        omega
      rw [← part, div_le_div_iff₀ two_pos positive, one_mul, mul_comm]
      exact_mod_cast twice
    rw [Nat.cast_add, Nat.cast_one, abs_le]
    constructor <;> linarith

theorem Decimal.trim_value (d : Decimal) (fuel : Nat) : (d.trim fuel).value = d.value := by
  induction fuel generalizing d with
  | zero => rfl
  | succ fuel ih =>
      rw [trim]
      split
      · rename_i divisible
        have tenfold : d.digits / 10 * 10 = d.digits := by
          simp only [Bool.and_eq_true, decide_eq_true_eq] at divisible
          omega
        have digits : (d.digits : ℚ) = (d.digits / 10 : Nat) * 10 := by exact_mod_cast tenfold.symm
        rw [ih, value, value, zpow_add₀ (by norm_num), digits]
        ring
      · rfl

theorem zpow_two_lt (n : Nat) : (2 : ℚ) ^ ((3 * n : Nat) : ℤ) ≤ 10 ^ (n : ℤ) := by
  rw [zpow_natCast, zpow_natCast, pow_mul]
  exact pow_le_pow_left₀ (by norm_num) (by norm_num) n

theorem ten_zpow_add (place : Int) (n : Nat) :
    (10 : ℚ) ^ (place + n) = (10 ^ n : Nat) * 10 ^ place := by
  rw [zpow_add₀ (by norm_num), zpow_natCast, mul_comm, Nat.cast_pow, Nat.cast_ofNat]

theorem not_beyond_of_ratio {digits length : Nat} {place : Int} (lower : 10 ^ (length - 1) ≤ digits)
    (written : 1 ≤ length) (small : (digits : ℚ) * 10 ^ place < 2 ^ (1025 : ℤ)) :
    ¬tenLimit < place + length := by
  have bound : (10 : ℚ) ^ (place + (length - 1 : Nat)) < 10 ^ ((342 : Nat) : ℤ) :=
    calc (10 : ℚ) ^ (place + (length - 1 : Nat))
        = (10 ^ (length - 1) : Nat) * 10 ^ place := ten_zpow_add _ _
      _ ≤ digits * 10 ^ place := by gcongr
      _ < 2 ^ (1025 : ℤ) := small
      _ ≤ 2 ^ ((3 * 342 : Nat) : ℤ) := zpow_le_zpow_right₀ (by norm_num) (by norm_num)
      _ ≤ 10 ^ ((342 : Nat) : ℤ) := zpow_two_lt 342
  have exponents := (zpow_lt_zpow_iff_right₀ (by norm_num)).mp bound
  rw [tenLimit]
  omega

theorem not_below_of_ratio {digits length : Nat} {place : Int} (upper : digits < 10 ^ length)
    (large : 2 ^ (-1075 : ℤ) ≤ (digits : ℚ) * 10 ^ place) : ¬place + length < -tenLimit := by
  have bound : (10 : ℚ) ^ (-((359 : Nat) : ℤ)) < 10 ^ (place + length) :=
    calc (10 : ℚ) ^ (-((359 : Nat) : ℤ))
        ≤ 2 ^ (-((3 * 359 : Nat) : ℤ)) := by
          rw [zpow_neg, zpow_neg]
          exact inv_anti₀ (by positivity) (zpow_two_lt 359)
      _ ≤ 2 ^ (-1075 : ℤ) := zpow_le_zpow_right₀ (by norm_num) (by norm_num)
      _ ≤ digits * 10 ^ place := large
      _ < (10 ^ length : Nat) * 10 ^ place := by gcongr
      _ = 10 ^ (place + length) := (ten_zpow_add _ _).symm
  have exponents := (zpow_lt_zpow_iff_right₀ (by norm_num)).mp bound
  rw [tenLimit]
  omega

section Magnitude

variable {x : Float} {negative : Bool} {mantissa : Nat} {exponent : Int}
  (found : parts x = .finite negative mantissa exponent) (positive : 0 < mantissa)

include found positive

theorem magnitudeBits_seventeen {num den digits : Nat} {position : Int} (denPositive : 0 < den)
    (value : (num : ℚ) / den = mantissa * 2 ^ exponent)
    (last : position = leadingPosition num den - 16)
    (near : |(digits : ℚ) - num / den / 10 ^ position| ≤ 1 / 2) :
    (Decimal.mk digits position).magnitudeBits =
      (exponent + 1074).toNat * leadingBit + mantissa := by
  obtain ⟨upper, least, most, normal⟩ := parts_bounds found
  have scale : 0 < Nat.pow 10 (-position).toNat := Nat.pow_pos (by decide)
  apply magnitudeBits_near scale positive upper least most normal
  have scaled : (0 : ℚ) < 2 ^ exponent := by positivity
  have magnitude : (0 : ℚ) < mantissa := by exact_mod_cast positive
  have numPositive : 0 < num := by
    refine Nat.pos_of_ne_zero ?_
    rintro rfl
    rw [Nat.cast_zero, zero_div] at value
    exact (mul_pos magnitude scaled).ne value
  have step : (10 : ℚ) ^ position * 10 ^ 16 ≤ mantissa * 2 ^ exponent := by
    rw [last, ← value, zpow_sub₀ (by norm_num)]
    norm_num
    exact pow_leadingPosition_le numPositive denPositive
  obtain ⟨grid, width⟩ : ∃ grid : ℚ, (10 : ℚ) ^ position = grid := ⟨_, rfl⟩
  have gridPositive : 0 < grid := by
    rw [← width]
    positivity
  rw [value, width] at near
  rw [width] at step
  have distance : |(digits : ℚ) * grid / 2 ^ exponent - mantissa| ≤ grid / 2 / 2 ^ exponent :=
    calc |(digits : ℚ) * grid / 2 ^ exponent - mantissa|
        = |((digits : ℚ) - mantissa * 2 ^ exponent / grid) * (grid / 2 ^ exponent)| := by
          congr 1
          field_simp
      _ = |(digits : ℚ) - mantissa * 2 ^ exponent / grid| * (grid / 2 ^ exponent) := by
          rw [abs_mul, abs_of_pos (by positivity : 0 < grid / 2 ^ exponent)]
      _ ≤ 1 / 2 * (grid / 2 ^ exponent) :=
          mul_le_mul_of_nonneg_right near (by positivity)
      _ = grid / 2 / 2 ^ exponent := by ring
  rw [ratio_decimal, width]
  calc |(digits : ℚ) * grid / 2 ^ exponent - mantissa| * 2 ^ 54
      ≤ grid / 2 / 2 ^ exponent * 2 ^ 54 := by gcongr
    _ = grid * 10 ^ 16 / 2 ^ exponent * (2 ^ 53 / 10 ^ 16) := by ring
    _ ≤ mantissa * 2 ^ exponent / 2 ^ exponent * (2 ^ 53 / 10 ^ 16) := by gcongr
    _ = mantissa * (2 ^ 53 / 10 ^ 16) := by field_simp
    _ < mantissa := by
        norm_num
        linarith

theorem searchGrids_reads {num den fuel : Nat} {position : Int} (denPositive : 0 < den)
    (value : (num : ℚ) / den = mantissa * 2 ^ exponent)
    (last : position - fuel = leadingPosition num den - 16) :
    (searchGrids num den ((exponent + 1074).toNat * leadingBit + mantissa) fuel
      position).magnitudeBits = (exponent + 1074).toNat * leadingBit + mantissa := by
  induction fuel generalizing position with
  | zero =>
      obtain ⟨digits, rest, shape, near⟩ := neighbours_head denPositive position
      rw [searchGrids, shape, List.headD_cons]
      exact magnitudeBits_seventeen found positive denPositive value (by omega) near
  | succ fuel ih =>
      rw [searchGrids]
      split
      · rename_i hit
        have reads := List.find?_some hit
        simpa using reads
      · exact ih (by omega)

theorem finite_bits : (exponent + 1074).toNat * leadingBit + mantissa < infinityBits ∧
    (exponent + 1074).toNat * leadingBit + mantissa ≠ 0 := by
  obtain ⟨upper, least, most, -⟩ := parts_bounds found
  rw [infinityBits, leadingBit]
  omega

theorem magnitudeBits_of_value {num den : Nat} (denPositive : 0 < den)
    (value : (num : ℚ) / den = mantissa * 2 ^ exponent) :
    magnitudeBits num den = (exponent + 1074).toNat * leadingBit + mantissa := by
  obtain ⟨upper, least, most, normal⟩ := parts_bounds found
  apply magnitudeBits_near denPositive positive upper least most normal
  rw [value, mul_div_cancel_right₀ _ (by positivity), sub_self, abs_zero, zero_mul]
  exact_mod_cast positive

theorem magnitudeBits_shortest {d : Decimal} (same : d.value = (shortest mantissa exponent).value) :
    d.magnitudeBits = (exponent + 1074).toNat * leadingBit + mantissa := by
  have scale : 0 < Nat.pow 10 (-d.exponent).toNat := Nat.pow_pos (by decide)
  have scaled : 0 < scaleUp 1 (-exponent) := scaleUp_positive Nat.one_pos _
  have value := ratio_magnitude mantissa exponent
  have exact := magnitudeBits_of_value found positive scaled value
  rw [shortest, Decimal.trim_value, exact] at same
  rw [Decimal.magnitudeBits,
    ← Decimal.magnitudeBits_of_value scale ((ratio_decimal _ _).trans same)]
  exact searchGrids_reads found positive scaled value (by omega)

theorem shortest_positive : 0 < (shortest mantissa exponent).digits := by
  refine Nat.pos_of_ne_zero ?_
  intro zero
  apply (finite_bits found positive).2
  rw [← magnitudeBits_shortest found positive rfl, Decimal.magnitudeBits, zero, Nat.zero_mul,
    magnitudeBits, if_pos rfl]

end Magnitude

/-- A decimal is read as the number nearest to it. Beyond the powers of ten that are tried at all,
this number is infinite or zero. -/
theorem ofDecimal_eq {d : Decimal} {length : Nat} (negative : Bool)
    (lower : 0 < d.digits → 10 ^ (length - 1) ≤ d.digits) (upper : d.digits < 10 ^ length) :
    ofDecimal negative d.digits length d.exponent = ofBits negative d.magnitudeBits := by
  rcases Nat.eq_zero_or_pos d.digits with zero | positive
  · have bits : d.magnitudeBits = 0 := by
      rw [Decimal.magnitudeBits, zero, Nat.zero_mul, magnitudeBits, if_pos rfl]
    rw [ofDecimal, if_pos zero, bits]
  · have written : 1 ≤ length := by
      refine Nat.pos_of_ne_zero ?_
      rintro rfl
      omega
    have scale : 0 < Nat.pow 10 (-d.exponent).toNat := Nat.pow_pos (by decide)
    have scaled : 0 < d.digits * Nat.pow 10 d.exponent.toNat :=
      Nat.mul_pos positive (Nat.pow_pos (by decide))
    have value := ratio_decimal d.digits d.exponent
    rw [ofDecimal, if_neg positive.ne']
    split
    · rename_i beyond
      have infinite : d.magnitudeBits = infinityBits := by
        by_contra finite
        have small := ratio_lt_of_finite scaled scale
          (Nat.lt_of_le_of_ne (magnitudeBits_le _ _) finite)
        exact not_beyond_of_ratio (lower positive) written (value ▸ small) beyond
      rw [infinite]
    · split
      · rename_i below
        have zero : d.magnitudeBits = 0 := by
          by_contra nonzero
          have large := le_ratio_of_nonzero scaled scale nonzero
          exact not_below_of_ratio upper (value ▸ large) below
        rw [zero]
      · split
        · rename_i nonnegative
          have none : (-d.exponent).toNat = 0 := by omega
          rw [nearest, Decimal.magnitudeBits, none]
        · rename_i below
          have none : d.exponent.toNat = 0 := by omega
          have kept : d.digits * Nat.pow 10 0 = d.digits := Nat.mul_one _
          rw [nearest, Decimal.magnitudeBits, none, kept]

end BinaryQuadratic.Binary64
