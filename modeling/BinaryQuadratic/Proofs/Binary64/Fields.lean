import BinaryQuadratic.Proofs.Binary64.Conversion

/-!
Binary64 numbers by the fields of their bits. The parts of a number determine it, and the bits of
its magnitude are its exponent and its mantissa put together.
-/

namespace BinaryQuadratic.Binary64

open Float.Model (Format UnpackedFloat)
open Float.Model.UnpackedFloat

theorem isNegative_inj {s t : Sign} (same : isNegative s = isNegative t) : s = t := by
  cases s <;> cases t <;> simp_all [isNegative]

theorem partsOf_inj {u v : UnpackedFloat} (same : partsOf u = partsOf v) : u = v := by
  cases u with
  | notANumber => cases v <;> simp_all [partsOf]
  | infinity sign =>
      cases v with
      | infinity other => rw [isNegative_inj (Parts.infinite.inj same)]
      | _ => simp [partsOf] at same
  | zero sign =>
      cases v with
      | zero other => rw [isNegative_inj (Parts.finite.inj same).1]
      | finite other mantissa exponent positive =>
          simp only [partsOf, Parts.finite.injEq] at same
          omega
      | _ => simp [partsOf] at same
  | finite sign mantissa exponent positive =>
      cases v with
      | zero other =>
          simp only [partsOf, Parts.finite.injEq] at same
          omega
      | finite other mantissa exponent positive =>
          simp only [partsOf, Parts.finite.injEq] at same
          obtain ⟨signs, rfl, rfl⟩ := same
          rw [isNegative_inj signs]
      | _ => simp [partsOf] at same

theorem parts_inj {x y : Float} (same : parts x = parts y) : x = y := by
  rw [parts_eq, parts_eq] at same
  exact decode_inj (partsOf_inj same)

theorem parts_bounds {x : Float} {negative : Bool} {mantissa : Nat} {exponent : Int}
    (found : parts x = .finite negative mantissa exponent) :
    mantissa < 2 ^ 53 ∧ -1074 ≤ exponent ∧ exponent ≤ 971 ∧
      (2 ^ 52 ≤ mantissa ∨ exponent = -1074) := by
  have legal := legal_decode x
  rw [parts_eq] at found
  cases decoded : decode x with
  | notANumber => rw [decoded] at found; cases found
  | infinity sign => rw [decoded] at found; cases found
  | zero sign =>
      rw [decoded] at found
      cases found
      omega
  | finite sign mantissa exponent positive =>
      rw [decoded] at found legal
      cases found
      exact legal

theorem parts_ofBits {magnitude : Nat} (negative : Bool) (bound : magnitude < signBit) :
    parts (ofBits negative magnitude) =
      if magnitude / leadingBit = 2047 then
        if magnitude % leadingBit = 0 then .infinite negative else .notANumber
      else if magnitude / leadingBit = 0 then .finite negative (magnitude % leadingBit) (-1074)
      else .finite negative (leadingBit + magnitude % leadingBit)
        (((magnitude / leadingBit : Nat) : Int) - 1075) := by
  have word (bits : UInt64) :
      parts (Float.ofBits bits) = partsOf (unpack .binary64 bits.toBitVec) := by
    rw [parts_eq]
    change partsOf (decode (encode (unpack .binary64 bits.toBitVec))) = _
    rw [decode_encode (legal_unpack bits.toBitVec)]
  rw [signBit] at bound
  have whole : (UInt64.ofNat (if negative then signBit + magnitude else magnitude)).toNat =
      if negative then signBit + magnitude else magnitude := by
    rw [UInt64.toNat_ofNat', signBit]
    split <;> omega
  have sign : decide (signBit ≤ if negative then signBit + magnitude else magnitude) = negative := by
    cases negative with
    | true => simp
    | false => simpa [signBit] using bound
  have field : (if negative then signBit + magnitude else magnitude) / leadingBit % 2048 =
      magnitude / leadingBit := by
    rw [signBit, leadingBit]
    split <;> omega
  have fraction : (if negative then signBit + magnitude else magnitude) % leadingBit =
      magnitude % leadingBit := by
    rw [signBit, leadingBit]
    split <;> omega
  rw [ofBits, word, partsOf_unpack, whole, sign, field, fraction]

theorem infinityBits_lt_signBit : infinityBits < signBit := by decide

theorem parts_ofBits_finite {magnitude : Nat} (negative : Bool) (finite : magnitude < infinityBits) :
    ∃ mantissa exponent, parts (ofBits negative magnitude) = .finite negative mantissa exponent := by
  rw [parts_ofBits negative (Nat.lt_trans finite infinityBits_lt_signBit)]
  rw [infinityBits] at finite
  rw [if_neg (by rw [leadingBit]; omega)]
  split
  · exact ⟨_, _, rfl⟩
  · exact ⟨_, _, rfl⟩

theorem parts_of_fields {mantissa : Nat} {exponent : Int} (negative : Bool)
    (upper : mantissa < 2 ^ 53) (least : -1074 ≤ exponent) (most : exponent ≤ 971)
    (normal : 2 ^ 52 ≤ mantissa ∨ exponent = -1074) :
    parts (ofBits negative ((exponent + 1074).toNat * leadingBit + mantissa)) =
      .finite negative mantissa exponent := by
  rw [parts_ofBits negative (by rw [leadingBit, signBit]; omega), leadingBit]
  rw [if_neg (by omega)]
  by_cases leading : 2 ^ 52 ≤ mantissa
  · rw [if_neg (by omega), Parts.finite.injEq]
    refine ⟨rfl, ?_, ?_⟩ <;> omega
  · rw [if_pos (by omega), Parts.finite.injEq]
    refine ⟨rfl, ?_, ?_⟩ <;> omega

theorem ofBits_of_parts {x : Float} {negative : Bool} {mantissa : Nat} {exponent : Int}
    (found : parts x = .finite negative mantissa exponent) :
    ofBits negative ((exponent + 1074).toNat * leadingBit + mantissa) = x := by
  obtain ⟨upper, least, most, normal⟩ := parts_bounds found
  apply parts_inj
  rw [found, parts_of_fields negative upper least most normal]

theorem parts_infinity (negative : Bool) :
    parts (ofBits negative infinityBits) = .infinite negative := by
  rw [parts_ofBits negative infinityBits_lt_signBit]
  rfl

theorem parts_cases (x : Float) : x = notANumber ∨
    (∃ negative, x = ofBits negative infinityBits) ∨
    ∃ negative mantissa exponent, parts x = .finite negative mantissa exponent := by
  cases found : parts x with
  | notANumber => exact .inl (parts_inj found)
  | infinite negative =>
      exact .inr (.inl ⟨negative, parts_inj (found.trans (parts_infinity negative).symm)⟩)
  | finite negative mantissa exponent => exact .inr (.inr ⟨_, _, _, rfl⟩)

theorem parts_of_toFloat {n : Int} {x : Float} (run : (Number.int n).toFloat = .ok x) :
    ∃ negative mantissa exponent, parts x = .finite negative mantissa exponent := by
  obtain ⟨finite, rfl⟩ := toFloat_int_eq_ok.mp run
  exact ⟨_, parts_ofBits_finite _ finite⟩

end BinaryQuadratic.Binary64
