import BinaryQuadratic.Proofs.Binary64.WholeNumbers
import BinaryQuadratic.Proofs.CouplingRows
import BinaryQuadratic.Proofs.ExactEnergy
import BinaryQuadratic.Proofs.Exhaustive

/-!
Problems whose coefficients are integers. As long as these do not exceed 53 binary digits in sum,
no step of an energy is rounded, and the exhaustive solver finds the energies that the integers
have.
-/

namespace BinaryQuadratic

open Assignment Binary64 CouplingArray

section Unrounded

def exactly (value : ℚ) (x : Float) : Option Float :=
  if x.isFinite = true ∧ exactValue x = value then some x else none

/-- Binary64 numbers as long as nothing is rounded: a conversion, a sum or a product that is not
exact has no result. -/
def Arithmetic.unrounded : Arithmetic (Option Float) where
  zero := some 0.0
  ofCell n := exactly n <$> (Number.int n).toFloat
  ofCoupling w := some w
  add a b := a.bind fun x => b.bind fun y => exactly (exactValue x + exactValue y) (x + y)
  mul a b := a.bind fun x => b.bind fun y => exactly (exactValue x * exactValue y) (x * y)

theorem represents_zero : Represents 0.0 0 := ⟨rfl, exactValue_zero⟩

theorem represents_one : Represents 1.0 1 := by
  refine ⟨rfl, ?_⟩
  have shape : parts 1.0 = .finite false (2 ^ 52) (-52) := by rfl
  rw [exactValue_of_parts shape, applySign]
  norm_num

theorem represents_bitValue {x : Int} (bit : x = 0 ∨ x = 1) : Represents (bitValue x) x := by
  rcases bit with rfl | rfl
  · exact represents_zero
  · exact represents_one

theorem Binary64.Represents.mul_zero {w : Float} {n : Int} (whole : Represents w n) :
    Represents (w * 0.0) 0 := by
  obtain ⟨sign, decoded⟩ := decode_mul_zero whole.finite
  refine ⟨isFinite_mul_zero whole.finite, ?_⟩
  rw [exactValue_eq_valueOf, decoded, valueOf_zero, Int.cast_zero]

theorem Binary64.Represents.mul_bit {w : Float} {n y : Int} (whole : Represents w n)
    (bit : y = 0 ∨ y = 1) : Represents (w * bitValue y) (n * y) := by
  rcases bit with rfl | rfl
  · rw [Int.mul_zero]
    exact whole.mul_zero
  · rw [Int.mul_one, bitValue, if_neg one_ne_zero, mul_one_float]
    exact whole

theorem exactly_of_represents {x : Float} {n : Int} {value : ℚ} (whole : Represents x n)
    (same : value = n) : exactly value x = some x := by
  rw [exactly, if_pos ⟨whole.finite, whole.value.trans same.symm⟩]

theorem unrounded_add {x y : Float} {m n : Int} (left : Represents x m) (right : Represents y n)
    (sum : Represents (x + y) (m + n)) :
    Arithmetic.unrounded.add (some x) (some y) = some (x + y) := by
  apply exactly_of_represents sum
  rw [left.value, right.value, Int.cast_add]

theorem unrounded_mul {x y : Float} {m n : Int} (left : Represents x m) (right : Represents y n)
    (product : Represents (x * y) (m * n)) :
    Arithmetic.unrounded.mul (some x) (some y) = some (x * y) := by
  apply exactly_of_represents product
  rw [left.value, right.value, Int.cast_mul]

theorem unrounded_ofCell {x : Int} (bit : x = 0 ∨ x = 1) :
    Arithmetic.unrounded.ofCell x = .ok (some (bitValue x)) := by
  have converted : (Number.int x).toFloat = .ok (bitValue x) := by
    rcases bit with rfl | rfl
    · exact toFloat_zero
    · exact toFloat_one
  change exactly x <$> (Number.int x).toFloat = _
  rw [converted, map_ok, exactly_of_represents (represents_bitValue bit) rfl]

theorem Binary64.Represents.mul_bits {w : Float} {n y : Int} (whole : Represents w n)
    (bit : y = 0 ∨ y = 1) : Represents (bitValue 1 * w * bitValue y) (1 * n * y) := by
  rw [bitValue, if_neg one_ne_zero, one_mul_float, Int.one_mul]
  exact whole.mul_bit bit

theorem unrounded_term {w : Float} {n y : Int} (whole : Represents w n) (bit : y = 0 ∨ y = 1) :
    Arithmetic.unrounded.mul
        (Arithmetic.unrounded.mul (some (bitValue 1)) (Arithmetic.unrounded.ofCoupling w))
        (some (bitValue y)) = some (bitValue 1 * w * bitValue y) := by
  have set : Represents (bitValue 1) 1 := represents_bitValue (.inr rfl)
  have left : Represents (bitValue 1 * w) (1 * n) := by
    rw [bitValue, if_neg one_ne_zero, one_mul_float, Int.one_mul]
    exact whole
  have coupling : Arithmetic.unrounded.ofCoupling w = some w := rfl
  rw [coupling, unrounded_mul set whole left,
    unrounded_mul left (represents_bitValue bit) (whole.mul_bits bit)]

theorem foldl_add_exact {β : Type} {items : List β} {addend : β → Float} {value : β → Int}
    {term : β → Option Float} (whole : ∀ item ∈ items, Represents (addend item) (value item))
    (exact : ∀ item ∈ items, term item = some (addend item)) {start : Float} {total : Int}
    (initial : Represents start total)
    (budget : total.natAbs + (items.map fun item => (value item).natAbs).sum ≤ 2 ^ 53) :
    Represents (items.foldl (fun sum item => sum + addend item) start)
      (total + (items.map value).sum) ∧
    items.foldl (fun sum item => Arithmetic.unrounded.add sum (term item)) (some start) =
      some (items.foldl (fun sum item => sum + addend item) start) := by
  induction items generalizing start total with
  | nil =>
      rw [List.map_nil, List.sum_nil, Int.add_zero]
      exact ⟨initial, rfl⟩
  | cons item rest ih =>
      rw [List.forall_mem_cons] at whole exact
      rw [List.map_cons, List.sum_cons] at budget
      have triangle := Int.natAbs_add_le total (value item)
      have next : Represents (start + addend item) (total + value item) :=
        initial.add whole.1 (by omega)
      obtain ⟨summed, unrounded⟩ := ih whole.2 exact.2 next (by omega)
      rw [List.map_cons, List.sum_cons, ← Int.add_assoc]
      refine ⟨summed, ?_⟩
      rw [List.foldl_cons, exact.1, unrounded_add initial whole.1 next, unrounded, List.foldl_cons]

end Unrounded

namespace CouplingArray

theorem bitEnergy_exact {entry : Nat → Nat → Float} {whole : Nat × Nat → Int} {xs : List Int}
    (bits : IsBits xs) (entries : ∀ pair, Represents (entry pair.1 pair.2) (whole pair))
    (budget : ((summedPairs xs.length xs).map fun pair => (whole pair).natAbs).sum ≤ 2 ^ 53) :
    Represents (bitEnergy entry xs) ((summedPairs xs.length xs).map fun pair =>
        xs.getD pair.1 0 * whole pair * xs.getD pair.2 0).sum ∧
      (square xs.length entry).energyIn .unrounded xs = .ok (some (bitEnergy entry xs)) := by
  have terms : ∀ pair ∈ summedPairs xs.length xs, Represents
      (pairTerm .binary64 bitValue entry xs pair) (xs.getD pair.1 0 * whole pair * xs.getD pair.2 0) := by
    intro pair member
    rw [pairTerm, getD_of_summed bits member]
    exact (entries pair).mul_bits (isBits_getD bits pair.2)
  have exact : ∀ pair ∈ summedPairs xs.length xs,
      pairTerm .unrounded (fun x => some (bitValue x)) entry xs pair =
        some (pairTerm .binary64 bitValue entry xs pair) := by
    intro pair member
    rw [pairTerm, pairTerm, getD_of_summed bits member]
    exact unrounded_term (entries pair) (isBits_getD bits pair.2)
  have small : ((summedPairs xs.length xs).map fun pair =>
      (xs.getD pair.1 0 * whole pair * xs.getD pair.2 0).natAbs).sum ≤ 2 ^ 53 := by
    apply le_trans _ budget
    apply List.sum_le_sum
    intro pair member
    rw [getD_of_summed bits member, Int.one_mul]
    rcases isBits_getD bits pair.2 with zero | one
    · rw [zero, Int.mul_zero]
      exact Nat.zero_le _
    · rw [one, Int.mul_one]
  obtain ⟨energy, unrounded⟩ := foldl_add_exact terms exact represents_zero (by simpa using small)
  have cells : ∀ x ∈ xs, Arithmetic.unrounded.ofCell x = .ok (some (bitValue x)) :=
    fun x member => unrounded_ofCell (bits x member)
  rw [Int.zero_add] at energy
  rw [energyIn_square cells, bitEnergy, squareSum_eq_foldl, squareSum_eq_foldl]
  exact ⟨energy, congrArg Except.ok unrounded⟩

end CouplingArray

namespace Problem

/-- The coefficients have integer values, whose magnitudes have at most 53 digits in sum. -/
structure HasIntegers (p : Problem) (v : Nat × Nat → Int) : Prop where
  values : ∀ term ∈ p.terms, ∃ number,
    Value.toNumber term.2 = .ok number ∧ number.HasValue (v term.1)
  bounded : (p.terms.map fun term => (v term.1).natAbs).sum ≤ 2 ^ 53

def integerEnergy (p : Problem) (v : Nat × Nat → Int) (xs : List Int) : Int :=
  (p.terms.map fun term => v term.1 * xs.getD term.1.1 0 * xs.getD term.1.2 0).sum

def integerAt (p : Problem) (v : Nat × Nat → Int) (pair : Nat × Nat) : Int :=
  if pair ∈ p.terms.map Prod.fst then v pair else 0

variable {p : Problem} {v : Nat × Nat → Int}

theorem HasIntegers.read (whole : p.HasIntegers v) {term : (Nat × Nat) × Datum}
    (member : term ∈ p.terms) : ∃ x, Value.toFloat term.2 = .ok x ∧ Represents x (v term.1) := by
  obtain ⟨number, read, value⟩ := whole.values term member
  rw [toFloat_number read]
  generalize same : (v term.1 : ℚ) = value at value
  cases value with
  | int n =>
      rw [Rat.intCast_inj] at same
      have present : n.natAbs ∈ p.terms.map fun term => (v term.1).natAbs :=
        List.mem_map.mpr ⟨term, member, by rw [same]⟩
      have bound : n.natAbs ≤ 2 ^ 53 := le_trans (List.le_sum_of_mem present) whole.bounded
      rw [same]
      exact toFloat_represents bound
  | float finite => exact ⟨_, rfl, finite, same.symm⟩

theorem HasIntegers.coefficients (whole : p.HasIntegers v) :
    p.HasCoefficients fun x => x.isFinite = true := by
  intro term member
  obtain ⟨x, read, value⟩ := whole.read member
  exact ⟨x, read, value.finite⟩

theorem HasIntegers.weight (whole : p.HasIntegers v) (wellFormed : p.WellFormed)
    (pair : Nat × Nat) : Represents (p.weight pair.1 pair.2) (p.integerAt v pair) := by
  cases found : p.lookup pair with
  | none =>
      have absent : pair ∉ p.terms.map Prod.fst := by
        intro member
        obtain ⟨term, termMember, rfl⟩ := List.mem_map.mp member
        have missing := List.find?_eq_none.mp (Option.map_eq_none_iff.mp found)
        exact missing term termMember (by simp)
      rw [Problem.weight, couplingAt_of_absent found, integerAt, if_neg absent]
      exact represents_zero
  | some d =>
      have member := mem_terms_of_lookup found
      obtain ⟨x, read, value⟩ := whole.read member
      rw [Problem.weight, couplingAt_of_lookup (wellFormed.upper _ member).1 found read, integerAt,
        if_pos (List.mem_map_of_mem member)]
      exact value

theorem HasIntegers.budget (whole : p.HasIntegers v) (wellFormed : p.WellFormed)
    {pairs : List (Nat × Nat)} (distinct : pairs.Nodup) :
    (pairs.map fun pair => (p.integerAt v pair).natAbs).sum ≤ 2 ^ 53 := by
  have keys : ∀ pair, (p.integerAt v pair).natAbs ≠ 0 → pair ∈ (p.terms.map Prod.fst).toFinset := by
    intro pair nonzero
    rw [List.mem_toFinset]
    by_contra absent
    rw [integerAt, if_neg absent] at nonzero
    exact nonzero rfl
  calc (pairs.map fun pair => (p.integerAt v pair).natAbs).sum
      = ∑ pair ∈ pairs.toFinset, (p.integerAt v pair).natAbs :=
        (List.sum_toFinset _ distinct).symm
    _ ≤ ∑ pair ∈ (p.terms.map Prod.fst).toFinset, (p.integerAt v pair).natAbs :=
        Finset.sum_le_sum_of_ne_zero fun pair _ => keys pair
    _ = ((p.terms.map Prod.fst).map fun pair => (p.integerAt v pair).natAbs).sum :=
        List.sum_toFinset _ wellFormed.distinct
    _ = (p.terms.map fun term => (v term.1).natAbs).sum := by
        rw [List.map_map]
        apply congrArg List.sum
        apply List.map_congr_left
        intro term member
        rw [Function.comp_apply, integerAt, if_pos (List.mem_map_of_mem member)]
    _ ≤ 2 ^ 53 := whole.bounded

theorem HasIntegers.exactEnergy (whole : p.HasIntegers v) (xs : List Int) :
    p.exactEnergy xs = p.integerEnergy v xs := by
  rw [Problem.exactEnergy, integerEnergy, readTerms, List.map_map, Int.cast_list_sum, List.map_map]
  apply congrArg List.sum
  apply List.map_congr_left
  intro term member
  obtain ⟨x, read, value⟩ := whole.read member
  have reads : reading term.2 = x := by rw [reading, read]
  simp only [Function.comp_apply, exactTerm, reads, value.value, Int.cast_mul]

theorem squareSum_weight {property : Float → Prop} (coefficients : p.HasCoefficients property)
    (wellFormed : p.WellFormed) {xs : List Int} (sized : p.size = xs.length)
    (fits : (xs.length : Int) < sideMemory) :
    squareSum .exact (fun x => (x : ℚ)) xs.length p.weight xs = p.exactEnergy xs := by
  have converted := toCouplings_ok coefficients sized fits
  have energy := energyIn_exact coefficients wellFormed sized converted rfl
  rw [energyIn_square fun x _ => rfl] at energy
  exact Except.ok.inj energy

theorem HasIntegers.energy (whole : p.HasIntegers v) (wellFormed : p.WellFormed) {xs : List Int}
    (sized : p.size = xs.length) (fits : (xs.length : Int) < sideMemory) (bits : IsBits xs) :
    Represents (bitEnergy p.weight xs) (p.integerEnergy v xs) ∧
      (square xs.length p.weight).energyIn .unrounded xs =
        .ok (some (bitEnergy p.weight xs)) := by
  obtain ⟨energy, unrounded⟩ := bitEnergy_exact bits (whole.weight wellFormed)
    (whole.budget wellFormed (nodup_summedPairs _ xs))
  have term (pair : Nat × Nat) : pairTerm .exact (fun x => (x : ℚ)) p.weight xs pair =
      ((xs.getD pair.1 0 * p.integerAt v pair * xs.getD pair.2 0 : Int) : ℚ) := by
    rw [Int.cast_mul, Int.cast_mul, ← (whole.weight wellFormed pair).value]
    rfl
  have sum := squareSum_weight whole.coefficients wellFormed sized fits
  rw [squareSum_eq_foldl, whole.exactEnergy] at sum
  change (summedPairs xs.length xs).foldl
    (fun sum pair => sum + pairTerm .exact (fun x => (x : ℚ)) p.weight xs pair) 0 = _ at sum
  rw [foldl_add_eq_sum, zero_add, List.map_congr_left fun pair _ => term pair] at sum
  have same : ((summedPairs xs.length xs).map fun pair =>
      xs.getD pair.1 0 * p.integerAt v pair * xs.getD pair.2 0).sum = p.integerEnergy v xs := by
    rw [← Rat.intCast_inj, ← sum, Int.cast_list_sum, List.map_map]
    rfl
  rw [same] at energy
  exact ⟨energy, unrounded⟩

end Problem

namespace Solver

open Enumeration

variable {p : Problem} {v : Nat × Nat → Int} {size : Nat}

theorem represents_level (whole : p.HasIntegers v) (wellFormed : p.WellFormed)
    (sized : p.size = size) (small : size < 1024) {level : Float × List Int}
    (member : level ∈ ranked (candidatesOf (bitEnergy p.weight) size)) :
    Represents level.1 (p.integerEnergy v level.2) := by
  obtain ⟨bits, rfl, same⟩ :=
    mem_candidatesOf.mp (firstOfEach_subset _ ((ranked_perm _).subset member))
  rw [← same]
  exact (whole.energy wellFormed sized (by rw [Problem.sideMemory]; omega) bits).1

def rankedIntegers (p : Problem) (v : Nat × Nat → Int) (size : Nat) : List Int :=
  (ranked (candidatesOf (bitEnergy p.weight) size)).map fun level => p.integerEnergy v level.2

theorem pairwise_rankedIntegers (whole : p.HasIntegers v) (wellFormed : p.WellFormed)
    (sized : p.size = size) (small : size < 1024) :
    (rankedIntegers p v size).Pairwise (· < ·) := by
  apply List.pairwise_map.mpr
  apply (isSpectrum_weight whole.coefficients size).ascending.imp_of_mem
  intro a b aMember bMember order
  have first := represents_level whole wellFormed sized small aMember
  exact (first.lt_iff (represents_level whole wellFormed sized small bMember)).mp order

theorem mem_rankedIntegers (whole : p.HasIntegers v) (wellFormed : p.WellFormed)
    (sized : p.size = size) (small : size < 1024) {n : Int} :
    n ∈ rankedIntegers p v size ↔
      ∃ xs, IsBits xs ∧ xs.length = size ∧ p.integerEnergy v xs = n := by
  have spectrum := isSpectrum_weight whole.coefficients size
  constructor
  · intro member
    obtain ⟨level, levelMember, rfl⟩ := List.mem_map.mp member
    obtain ⟨bits, length, -⟩ := spectrum.attained level levelMember
    exact ⟨level.2, bits, length, rfl⟩
  · rintro ⟨xs, bits, rfl, rfl⟩
    obtain ⟨energy, weighed, level, member, same, -⟩ := spectrum.covering xs bits rfl
    rw [energy_bits bits] at weighed
    cases weighed
    have integer := (whole.energy wellFormed sized (by rw [Problem.sideMemory]; omega) bits).1
    have found := represents_level whole wellFormed sized small member
    exact List.mem_map.mpr ⟨level, member, (found.beq_iff integer).mp same⟩

/-- The energies of a problem with integer coefficients are those of the integers, without a
rounded step, as long as the magnitudes of the coefficients have at most 53 digits in sum. The
full record then holds the distinct ones in ascending order, and their number. -/
theorem whole_energies {ν : Type} (reachable : p.Reachable) (sized : p.size = size)
    (small : size < 1024) (whole : p.HasIntegers v) :
    (∃ couplings, p.toCouplings = .ok couplings ∧
      (∀ i j x, couplings.read i j = .ok x → Represents x (p.integerAt v (i, j))) ∧
      ∀ (a : Assignment) xs, a.bits = .ok xs → IsBits xs → xs.length = size →
        ∃ energy, couplings.energy a = .ok energy ∧ Represents energy (p.integerEnergy v xs) ∧
          couplings.energyIn .unrounded xs = .ok (some energy)) ∧
    ∃ record energies evaluations distinct,
      (exhaustive .null : Solver ν).sample p .null = .ok record ∧
      List.Forall₂ (fun entry n => ∃ x, entry.energy = .float x ∧ Represents x n)
        record.entries energies ∧
      energies.Pairwise (· < ·) ∧
      (∀ n, n ∈ energies ↔ ∃ xs, IsBits xs ∧ xs.length = size ∧ p.integerEnergy v xs = n) ∧
      record.info = some ⟨evaluations, distinct⟩ ∧
      (Number.int energies.length).toFloat = .ok distinct := by
  have wellFormed := reachable.wellFormed
  have fits : (size : Int) < Problem.sideMemory := by
    rw [Problem.sideMemory]
    omega
  constructor
  · refine ⟨_, Problem.toCouplings_ok whole.coefficients sized fits, ?_, ?_⟩
    · intro i j x read
      obtain ⟨-, -, rfl⟩ := read_square_iff.mp read
      exact whole.weight wellFormed (i, j)
    · rintro a xs read bits rfl
      obtain ⟨energy, unrounded⟩ := whole.energy wellFormed sized fits bits
      refine ⟨bitEnergy p.weight xs, ?_, energy, unrounded⟩
      rw [CouplingArray.energy, read, ok_bind, energyOf_bits bits]
  · obtain ⟨evaluations, distinct, -, counted, enumerated⟩ :=
      enumerate_eq sized small whole.coefficients (2 ^ size)
    have request : Requests .null (2 ^ size) (2 ^ size) := .inl ⟨rfl, rfl⟩
    rw [List.take_of_length_le (length_ranked_le _ size)] at enumerated
    have sampled : (exhaustive .null : Solver ν).sample p .null =
        p.recordLength .null >>= enumerate p := sample_eq_enumerate p .null
    rw [recordLength_ok sized small request, ok_bind, enumerated] at sampled
    refine ⟨_, rankedIntegers p v size, evaluations, distinct, sampled, ?_,
      pairwise_rankedIntegers whole wellFormed sized small,
      fun n => mem_rankedIntegers whole wellFormed sized small, rfl, ?_⟩
    · rw [rankedIntegers, List.forall₂_map_left_iff, List.forall₂_map_right_iff, List.forall₂_same]
      intro level member
      exact ⟨level.1, rfl, represents_level whole wellFormed sized small member⟩
    · rw [rankedIntegers, List.length_map]
      exact counted

theorem whole_energies_largest :
    ∃ record energies, (exhaustive .null : Solver Unit).sample
        ⟨2, [((0, 1), .int (2 ^ 53 - 1)), ((0, 0), .int (-1))]⟩ .null = .ok record ∧
      List.Forall₂ (fun entry n => ∃ x, entry.energy = .float x ∧ Represents x n)
        record.entries energies ∧ 2 ^ 53 - 2 ∈ energies := by
  have reachable : Problem.Reachable ⟨2, [((0, 1), .int (2 ^ 53 - 1)), ((0, 0), .int (-1))]⟩ :=
    .insert (i := .int 0) (j := .int 0) (.insert (i := .int 0) (j := .int 1) (.empty 2) rfl) rfl
  have whole : Problem.HasIntegers ⟨2, [((0, 1), .int (2 ^ 53 - 1)), ((0, 0), .int (-1))]⟩
      fun pair => if pair.1 < pair.2 then 2 ^ 53 - 1 else -1 := by
    refine ⟨?_, by decide⟩
    simp only [List.forall_mem_cons]
    exact ⟨⟨.int (2 ^ 53 - 1), rfl, .int _⟩, ⟨.int (-1), rfl, .int _⟩, nofun⟩
  obtain ⟨-, record, energies, _, _, run, same, -, attained, -⟩ :=
    whole_energies reachable rfl (by decide) whole
  have bits : IsBits [1, 1] := by simp [IsBits]
  exact ⟨record, energies, run, same, (attained _).mpr ⟨[1, 1], bits, rfl, by decide⟩⟩

end Solver

end BinaryQuadratic
