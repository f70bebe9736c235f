import BinaryQuadratic.Number.Binary64
import Mathlib

/-!
Binary64 numbers as decoded values. A number is determined by what it decodes to, decoded values
are in one of few forms, and values in these forms survive being encoded.
-/

namespace BinaryQuadratic.Binary64

open Float.Model (Format UnpackedFloat)
open Float.Model.UnpackedFloat

def decode (x : Float) : UnpackedFloat := x.toModel.unpack

def encode (u : UnpackedFloat) : Float := .ofModel (.pack u)

/-- The forms of decoded values: a mantissa has at most 53 digits, and fewer only at the least
exponent. -/
def Legal : UnpackedFloat → Prop
  | .finite _ mantissa exponent _ =>
      mantissa < 2 ^ 53 ∧ -1074 ≤ exponent ∧ exponent ≤ 971 ∧
        (2 ^ 52 ≤ mantissa ∨ exponent = -1074)
  | _ => True

theorem add_eq (x y : Float) : x + y = encode (UnpackedFloat.add .binary64 (decode x) (decode y)) :=
  rfl

theorem mul_eq (x y : Float) : x * y = encode (UnpackedFloat.mul .binary64 (decode x) (decode y)) :=
  rfl

theorem isFinite_eq (x : Float) : x.isFinite = (decode x).isFinite := rfl

theorem isNaN_eq (x : Float) : x.isNaN = (decode x).isNaN := rfl

theorem exponentBias_eq : (Format.binary64.exponentBias : Int) = 1023 := rfl

theorem targetExponent_eq (total : Int) :
    Format.binary64.targetExponent total = max (total - 53) (-1074) := rfl

theorem toNat_leadingOne {width : Nat} (fraction : BitVec width) :
    (1#1 ++ fraction).toNat = 2 ^ width + fraction.toNat := by
  rw [BitVec.toNat_append, ← Nat.shiftLeft_add_eq_or_of_lt fraction.isLt]
  simp [Nat.shiftLeft_eq]

theorem unpackMantissa_toNat (bits : BitVec Format.binary64.numBits) :
    (unpackMantissa bits).toNat = bits.toNat % 2 ^ 52 := by
  simp [unpackMantissa, BitVec.extractLsb]

theorem unpackExponent_toNat (bits : BitVec Format.binary64.numBits) :
    (unpackExponent bits).toNat = bits.toNat / 2 ^ 52 % 2048 := by
  simp [unpackExponent, BitVec.extractLsb, Nat.shiftRight_eq_div_pow]

theorem unpackSign_toNat (bits : BitVec Format.binary64.numBits) :
    (unpackSign bits).toNat = bits.toNat / 2 ^ 63 := by
  have bound : bits.toNat < 2 ^ 64 := bits.isLt
  simp only [unpackSign, BitVec.extractLsb, BitVec.toNat_cast, BitVec.extractLsb'_toNat,
    Nat.shiftRight_eq_div_pow]
  omega

theorem components_unpack (bits : BitVec Format.binary64.numBits) :
    packComponents .binary64 (Sign.ofBitVec (unpackSign bits)) (unpackExponent bits)
      (unpackMantissa bits) = bits :=
  packComponents_unpackSign_unpackExponent_unpackMantissa bits

theorem allOnes_toNat {exponent : BitVec 11} : exponent = -1#11 ↔ exponent.toNat = 2047 :=
  ⟨fun same => by rw [same]; rfl, fun same => BitVec.eq_of_toNat_eq same⟩

theorem zero_toNat {width : Nat} {field : BitVec width} :
    field = BitVec.ofNat width 0 ↔ field.toNat = 0 := by
  constructor
  · intro same
    rw [same]
    rfl
  · intro same
    exact BitVec.eq_of_toNat_eq same

theorem legal_unpack (bits : BitVec Format.binary64.numBits) : Legal (unpack .binary64 bits) := by
  have exponentBound : (unpackExponent bits).toNat < 2 ^ 11 := (unpackExponent bits).isLt
  have fractionBound : (unpackMantissa bits).toNat < 2 ^ 52 := (unpackMantissa bits).isLt
  have leading := toNat_leadingOne (unpackMantissa bits)
  unfold unpack
  simp only
  split
  · split <;> trivial
  · rename_i notFull
    rw [allOnes_toNat] at notFull
    split
    · rename_i low
      rw [zero_toNat] at low
      split
      · trivial
      · simp only [Legal, low, exponentBias_eq]
        omega
    · rename_i notLow
      rw [zero_toNat] at notLow
      simp only [Legal, exponentBias_eq, leading]
      omega

theorem legal_decode (x : Float) : Legal (decode x) := legal_unpack x.toModel.toBits.toBitVec

theorem decode_encode_eq (u : UnpackedFloat) :
    decode (encode u) = unpack .binary64 (pack .binary64 u) := rfl

theorem unpack_components (sign : Sign) (exponent : BitVec 11) (fraction : BitVec 52) :
    unpack .binary64 (packComponents .binary64 sign exponent fraction) =
      if exponent.toNat = 2047 then
        if fraction.toNat = 0 then .infinity sign else .notANumber
      else if exponent.toNat = 0 then
        if present : fraction.toNat = 0 then .zero sign
        else .finite sign fraction.toNat (-1074) (by omega)
      else .finite sign (2 ^ 52 + fraction.toNat) (exponent.toNat - 1075) (by omega) := by
  simp only [unpack, unpackSign_packComponents, Sign.ofBitVec_toBitVec,
    unpackExponent_packComponents, unpackMantissa_packComponents, allOnes_toNat, zero_toNat,
    exponentBias_eq, toNat_leadingOne]
  split
  · rfl
  · split
    · rename_i low
      split
      · rfl
      · congr 1
        omega
    · congr 1

theorem pack_bounded {sign : Sign} {mantissa : Nat} {exponent : Int} {positive : 0 < mantissa}
    (upper : mantissa < 2 ^ 53) :
    pack .binary64 (.finite sign mantissa exponent positive) =
      if 2 ^ 11 ≤ (exponent + 1075).toNat + 1 then packedInfinity .binary64 sign
      else packComponents .binary64 sign
        (BitVec.ofNat 11 (if 2 ^ 52 ≤ mantissa then (exponent + 1075).toNat else 0))
        (BitVec.ofNat 52 mantissa) := by
  have digits : mantissa.log2 + 1 = Format.binary64.mantissaBits ↔ 2 ^ 52 ≤ mantissa := by
    change mantissa.log2 + 1 = 53 ↔ _
    have below : mantissa.log2 < 53 := (Nat.log2_lt (by omega)).mpr upper
    have above := Nat.le_log2 (n := mantissa) (k := 52) (by omega)
    omega
  have biased : (exponent + Format.binary64.exponentBias + (52 : Nat)).toNat =
      (exponent + 1075).toNat := by
    rw [exponentBias_eq]
    omega
  simp only [pack, biased, digits]
  split
  · rfl
  · split <;> rfl

theorem pack_finite {sign : Sign} {mantissa : Nat} {exponent : Int} {positive : 0 < mantissa}
    (legal : Legal (.finite sign mantissa exponent positive)) :
    pack .binary64 (.finite sign mantissa exponent positive) =
      packComponents .binary64 sign
        (BitVec.ofNat 11 (if 2 ^ 52 ≤ mantissa then (exponent + 1075).toNat else 0))
        (BitVec.ofNat 52 mantissa) := by
  obtain ⟨upper, least, most, normal⟩ := legal
  rw [pack_bounded upper, if_neg (by omega)]

theorem decode_encode {u : UnpackedFloat} (legal : Legal u) : decode (encode u) = u := by
  rw [decode_encode_eq]
  cases u with
  | notANumber => rfl
  | infinity sign => cases sign <;> rfl
  | zero sign => cases sign <;> rfl
  | finite sign mantissa exponent positive =>
      rw [pack_finite legal, unpack_components]
      obtain ⟨upper, least, most, normal⟩ := legal
      simp only [BitVec.toNat_ofNat]
      by_cases leading : 2 ^ 52 ≤ mantissa
      · have field : (exponent + 1075).toNat % 2 ^ 11 = (exponent + 1075).toNat := by omega
        have fraction : 2 ^ 52 + mantissa % 2 ^ 52 = mantissa := by omega
        have unbiased : ((exponent + 1075).toNat : Int) - 1075 = exponent := by omega
        simp only [leading, if_true, field, fraction, unbiased]
        rw [if_neg (by omega), if_neg (by omega)]
      · have least : exponent = -1074 := by omega
        have fraction : mantissa % 2 ^ 52 = mantissa := by omega
        simp only [leading, if_false, Nat.zero_mod, fraction, least]
        rw [if_neg (by omega), if_pos trivial, dif_neg (by omega)]

theorem encode_decode (x : Float) : encode (decode x) = x := by
  rcases x with ⟨⟨bits, valid⟩⟩
  have packed : UInt64.ofBitVec (pack .binary64 (unpack .binary64 bits.toBitVec)) = bits := by
    rw [pack_unpack_of_valid valid]
  simp only [encode, Float.Model.pack, decode, Float.Model.unpack, packed]

theorem decode_inj {x y : Float} (same : decode x = decode y) : x = y := by
  rw [← encode_decode x, same, encode_decode]

def isNegative : Sign → Bool
  | .negative => true
  | .positive => false

def partsOf : UnpackedFloat → Parts
  | .notANumber => .notANumber
  | .infinity sign => .infinite (isNegative sign)
  | .zero sign => .finite (isNegative sign) 0 (-1074)
  | .finite sign mantissa exponent _ => .finite (isNegative sign) mantissa exponent

theorem isNegative_ofBitVec (sign : BitVec 1) :
    isNegative (Sign.ofBitVec sign) = decide (sign.toNat = 1) := by
  revert sign
  decide

theorem unpackSign_negative (bits : BitVec Format.binary64.numBits) :
    isNegative (Sign.ofBitVec (unpackSign bits)) = decide (signBit ≤ bits.toNat) := by
  have bound : bits.toNat < 2 ^ 64 := bits.isLt
  rw [isNegative_ofBitVec, unpackSign_toNat, signBit]
  congr 1
  simp only [eq_iff_iff]
  omega

theorem partsOf_unpack (bits : UInt64) : partsOf (unpack .binary64 bits.toBitVec) =
    if bits.toNat / leadingBit % 2048 = 2047 then
      if bits.toNat % leadingBit = 0 then .infinite (decide (signBit ≤ bits.toNat)) else .notANumber
    else if bits.toNat / leadingBit % 2048 = 0 then
      .finite (decide (signBit ≤ bits.toNat)) (bits.toNat % leadingBit) (-1074)
    else .finite (decide (signBit ≤ bits.toNat)) (leadingBit + bits.toNat % leadingBit)
      (((bits.toNat / leadingBit % 2048 : Nat) : Int) - 1075) := by
  have negative : _ = decide (signBit ≤ bits.toNat) := unpackSign_negative bits.toBitVec
  have exponent : _ = bits.toNat / 2 ^ 52 % 2048 := unpackExponent_toNat bits.toBitVec
  have fraction : _ = bits.toNat % 2 ^ 52 := unpackMantissa_toNat bits.toBitVec
  rw [← components_unpack bits.toBitVec, unpack_components]
  simp only [leadingBit, ← negative, show 0x10000000000000 = 2 ^ 52 from rfl, ← exponent,
    ← fraction]
  split
  · split <;> rfl
  · split
    · split
      · rename_i none
        rw [none]
        rfl
      · rfl
    · rfl

theorem parts_eq (x : Float) : parts x = partsOf (decode x) := (partsOf_unpack x.toBits).symm

theorem isNaN_encode (u : UnpackedFloat) : (encode u).isNaN = u.isNaN := by
  rw [isNaN_eq, decode_encode_eq]
  cases u with
  | notANumber => rfl
  | infinity sign => cases sign <;> rfl
  | zero sign => cases sign <;> rfl
  | finite sign mantissa exponent positive =>
      simp only [pack]
      split
      · cases sign <;> rfl
      · rename_i bounded
        split
        · rw [unpack_components, BitVec.toNat_ofNat]
          rw [if_neg (by omega)]
          split
          · split <;> rfl
          · rfl
        · rw [unpack_components, if_neg (by decide), if_pos (by rfl)]
          split <;> rfl

end BinaryQuadratic.Binary64
