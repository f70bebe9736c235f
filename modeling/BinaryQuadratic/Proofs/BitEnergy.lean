import BinaryQuadratic.Proofs.Binary64.Arithmetic
import BinaryQuadratic.Proofs.Counting
import BinaryQuadratic.Proofs.SquareGrid

/-!
Energies of bits on square grids in binary64 numbers. They are numbers where all couplings are
finite, and an infinite coupling above the diagonal makes one of them no number: the row of a set
bit is not left out in the columns of bits that are zero.
-/

namespace BinaryQuadratic.CouplingArray

open Assignment Binary64

def bitValue (x : Int) : Float := if x = 0 then 0.0 else 1.0

def bitEnergy (entry : Nat → Nat → Float) (xs : List Int) : Float :=
  squareSum .binary64 bitValue xs.length entry xs

theorem bitEnergy_eq_foldl (entry : Nat → Nat → Float) (xs : List Int) :
    bitEnergy entry xs = (summedPairs xs.length xs).foldl (fun sum pair => sum +
      bitValue (xs.getD pair.1 0) * entry pair.1 pair.2 * bitValue (xs.getD pair.2 0)) 0.0 :=
  squareSum_eq_foldl .binary64 bitValue xs.length entry xs

theorem getD_of_summed {xs : List Int} (bits : IsBits xs) {side : Nat} {pair : Nat × Nat}
    (member : pair ∈ summedPairs side xs) : xs.getD pair.1 0 = 1 :=
  (isBits_getD bits pair.1).resolve_left (mem_summedPairs.mp member).2

theorem toFloat_bit {xs : List Int} (bits : IsBits xs) :
    ∀ x ∈ xs, Arithmetic.binary64.ofCell x = .ok (bitValue x) := by
  intro x member
  rcases bits x member with zero | one
  · subst x
    exact toFloat_zero
  · subst x
    exact toFloat_one

theorem energyOf_bits {xs : List Int} (bits : IsBits xs) (entry : Nat → Nat → Float) :
    (square xs.length entry).energyOf xs = .ok (bitEnergy entry xs) :=
  energyIn_square (toFloat_bit bits) entry

theorem energy_bits {xs : List Int} (bits : IsBits xs) (entry : Nat → Nat → Float) :
    (square xs.length entry).energy (.ofInts xs) = .ok (bitEnergy entry xs) := by
  rw [energy, bits_ofInts, ok_bind, energyOf_bits bits]

theorem term_bits {x : Int} (set : x ≠ 0) (w : Float) (y : Int) :
    bitValue x * w * bitValue y = if y = 0 then w * 0.0 else w := by
  rw [bitValue, if_neg set, one_mul_float, bitValue]
  split
  · rfl
  · exact mul_one_float w

theorem isFinite_mul_zero {x : Float} (finite : x.isFinite = true) :
    (x * 0.0).isFinite = true := by
  obtain ⟨sign, decoded⟩ := decode_mul_zero finite
  rw [isFinite_eq, decoded]
  rfl

theorem isNaN_bitEnergy {entry : Nat → Nat → Float} {xs : List Int}
    (finite : ∀ i j, (entry i j).isFinite = true) : (bitEnergy entry xs).isNaN = false := by
  rw [bitEnergy_eq_foldl]
  apply foldl_invariant (fun total : Float => total.isNaN = false) rfl
  intro pair member sum number
  apply isNaN_add_finite number
  rw [term_bits (mem_summedPairs.mp member).2]
  split
  · exact isFinite_mul_zero (finite _ _)
  · exact finite _ _

theorem bitEnergy_zeros (entry : Nat → Nat → Float) (side : Nat) :
    bitEnergy entry (List.replicate side 0) = 0.0 := by
  rw [bitEnergy_eq_foldl]
  apply foldl_invariant (fun total : Float => total = 0.0) rfl
  intro pair member
  have unset : (List.replicate side (0 : Int)).getD pair.1 0 = 0 := by
    rw [List.getD_eq_getElem?_getD, List.getElem?_replicate]
    split <;> rfl
  exact ((mem_summedPairs.mp member).2 unset).elim

def unitBits (side i : Nat) : List Int := (List.replicate side 0).set i 1

theorem isBits_unitBits (side i : Nat) : IsBits (unitBits side i) := by
  intro x member
  rcases List.mem_or_eq_of_mem_set member with zero | one
  · exact .inl (List.eq_of_mem_replicate zero)
  · exact .inr one

theorem length_unitBits (side i : Nat) : (unitBits side i).length = side := by
  simp [unitBits]

/-- The energy of the bit of a row with an infinite coupling to a later bit is no number. -/
theorem isNaN_bitEnergy_unitBits {entry : Nat → Nat → Float} {side i j : Nat} (order : i < j)
    (bound : j < side) (infinite : (entry i j).isInf = true) :
    (bitEnergy entry (unitBits side i)).isNaN = true := by
  have set : (unitBits side i).getD i 0 = 1 := by
    simp [unitBits, show i < side by omega]
  have unset : (unitBits side i).getD j 0 = 0 := by
    simp [unitBits, Nat.ne_of_lt order, bound]
  have member : (i, j) ∈ summedPairs side (unitBits side i) :=
    mem_summedPairs.mpr ⟨⟨by omega, bound⟩, by rw [set]; decide⟩
  rw [bitEnergy_eq_foldl, length_unitBits]
  apply foldl_attained (fun total : Float => total.isNaN = true) _ member
  · intro sum
    apply isNaN_add_of_isNaN
    right
    rw [term_bits (by rw [set]; decide), if_pos unset]
    exact isNaN_infinite_mul_zero infinite
  · intro pair _ sum unordered
    exact isNaN_add_of_isNaN (.inl unordered)

end BinaryQuadratic.CouplingArray
