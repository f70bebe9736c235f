import BinaryQuadratic.Proofs.Binary64.SignedZero
import BinaryQuadratic.Proofs.CouplingAccess

/-!
The energy as a sum over the pairs of set bits alone. What is added for all other pairs is a zero
of some sign, and no sum that starts from zero sees the difference.
-/

namespace BinaryQuadratic.CouplingArray

open Assignment Binary64

def setPairs (xs : List Int) : List (Nat × Nat) :=
  (List.range xs.length ×ˢ List.range xs.length).filter fun pair =>
    xs.getD pair.1 0 = 1 ∧ xs.getD pair.2 0 = 1

/-- The pairs of set bits on and above the diagonal, row by row. -/
def chosenPairs (xs : List Int) : List (Nat × Nat) :=
  (setPairs xs).filter fun pair => pair.1 ≤ pair.2

def chosenSum (h : CouplingArray) (xs : List Int) : Except Fault Float :=
  (chosenPairs xs).foldlM (fun total pair => do pure (total + (← h.read pair.1 pair.2))) 0.0

def IsFinite (h : CouplingArray) : Prop := ∀ i j x, h.read i j = .ok x → x.isFinite = true

variable {entry : Nat → Nat → Float} {xs : List Int}

theorem IsFinite.entries {n : Nat} (finite : (square n entry).IsFinite) :
    ∀ i, i < n → ∀ j, j < n → (entry i j).isFinite = true := by
  intro i rowBound j columnBound
  exact finite i j _ (read_square rowBound columnBound)

theorem mem_setPairs {pair : Nat × Nat} : pair ∈ setPairs xs ↔
    (pair.1 < xs.length ∧ pair.2 < xs.length) ∧ xs.getD pair.1 0 = 1 ∧ xs.getD pair.2 0 = 1 := by
  obtain ⟨i, j⟩ := pair
  simp [setPairs]

theorem setPairs_eq_filter (bits : IsBits xs) :
    setPairs xs = (summedPairs xs.length xs).filter fun pair => xs.getD pair.2 0 = 1 := by
  rw [setPairs, summedPairs, List.filter_filter]
  apply List.filter_congr
  intro pair _
  have bit := isBits_getD bits pair.1
  generalize xs.getD pair.1 0 = x, xs.getD pair.2 0 = y at bit ⊢
  rcases bit with rfl | rfl
  · simp
  · simp

theorem bitEnergy_eq_sum (bits : IsBits xs)
    (finite : ∀ i, i < xs.length → ∀ j, j < xs.length → (entry i j).isFinite = true) :
    bitEnergy entry xs =
      (setPairs xs).foldl (fun total pair => total + entry pair.1 pair.2) 0.0 := by
  -- A set bit times one that is not adds a zero of some sign.
  have unset : ∀ pair ∈ summedPairs xs.length xs, decide (xs.getD pair.2 0 = 1) = false →
      (bitValue (xs.getD pair.1 0) * entry pair.1 pair.2 * bitValue (xs.getD pair.2 0) == 0.0) =
        true := by
    intro pair member other
    obtain ⟨⟨rowBound, columnBound⟩, set⟩ := mem_summedPairs.mp member
    have zero := (isBits_getD bits pair.2).resolve_right (of_decide_eq_false other)
    rw [term_bits set, if_pos zero]
    exact beq_zero_iff_decode.mpr (decode_mul_zero (finite _ rowBound _ columnBound))
  rw [bitEnergy_eq_foldl, foldl_add_filter (by nofun) unset, ← setPairs_eq_filter bits]
  apply foldl_add_congr (by nofun)
  intro pair member
  obtain ⟨-, set, otherSet⟩ := mem_setPairs.mp member
  left
  rw [term_bits (by omega), if_neg (by omega)]

theorem chosenSum_square (entry : Nat → Nat → Float) (xs : List Int) :
    (square xs.length entry).chosenSum xs =
      .ok ((chosenPairs xs).foldl (fun total pair => total + entry pair.1 pair.2) 0.0) := by
  apply foldlM_eq_ok_foldl
  intro pair member total
  obtain ⟨bounds, -⟩ := mem_setPairs.mp (List.mem_of_mem_filter member)
  rw [read_square bounds.1 bounds.2]
  rfl

theorem bitEnergy_eq_chosen (bits : IsBits xs) (triangular : (square xs.length entry).IsTriangular
    xs.length) (finite : (square xs.length entry).IsFinite) :
    bitEnergy entry xs =
      (chosenPairs xs).foldl (fun total pair => total + entry pair.1 pair.2) 0.0 := by
  rw [bitEnergy_eq_sum bits finite.entries, chosenPairs]
  apply foldl_add_filter (by nofun)
  intro pair member below
  obtain ⟨bounds, -⟩ := mem_setPairs.mp member
  exact triangular.below _ _ _ (by simpa using below) (read_square bounds.1 bounds.2)

theorem bitEnergy_eq_of_set {other : Nat → Nat → Float} (bits : IsBits xs)
    (finite : (square xs.length entry).IsFinite) (otherFinite : (square xs.length other).IsFinite)
    (same : ∀ pair ∈ setPairs xs, other pair.1 pair.2 = entry pair.1 pair.2) :
    bitEnergy other xs = bitEnergy entry xs := by
  rw [bitEnergy_eq_sum bits finite.entries, bitEnergy_eq_sum bits otherFinite.entries]
  apply foldl_add_congr (by nofun)
  intro pair member
  exact .inl (same pair member)

theorem foldl_add_finite {pairs : List (Nat × Nat)}
    (finite : ∀ pair ∈ pairs, (entry pair.1 pair.2).isFinite = true) :
    (pairs.foldl (fun total pair => total + entry pair.1 pair.2) 0.0).isNaN = false ∧
      pairs.foldl (fun total pair => total + entry pair.1 pair.2) 0.0 ≠ -0.0 := by
  constructor
  · apply foldl_invariant (fun total : Float => total.isNaN = false) rfl
    intro pair member total number
    exact isNaN_add_finite number (finite pair member)
  · intro negative
    have kept : decode (pairs.foldl (fun total pair => total + entry pair.1 pair.2) 0.0) ≠
        .zero .negative := foldl_add_ne_negative_zero (by nofun)
    rw [negative] at kept
    exact kept rfl

theorem bitEnergy_finite (bits : IsBits xs) (triangular : (square xs.length entry).IsTriangular
    xs.length) (finite : (square xs.length entry).IsFinite) :
    (bitEnergy entry xs).isNaN = false ∧ bitEnergy entry xs ≠ -0.0 := by
  rw [bitEnergy_eq_chosen bits triangular finite]
  apply foldl_add_finite
  intro pair member
  obtain ⟨bounds, -⟩ := mem_setPairs.mp (List.mem_of_mem_filter member)
  exact finite.entries _ bounds.1 _ bounds.2

/-- The energy of bits is the sum of the couplings of their chosen pairs, a number that is not
negative zero. No other coupling is seen in it. -/
theorem energy_of_chosen {h : CouplingArray} {a : Assignment}
    (triangular : h.IsTriangular xs.length) (finite : h.IsFinite) (read : a.bits = .ok xs)
    (bits : IsBits xs) :
    ∃ energy, h.energy a = .ok energy ∧ h.chosenSum xs = .ok energy ∧
      energy.isNaN = false ∧ energy ≠ -0.0 ∧
      ∀ other : CouplingArray, other.IsSquare xs.length → other.IsFinite →
        (∀ i j, xs.getD i 0 = 1 → xs.getD j 0 = 1 → other.read i j = h.read i j) →
        other.energy a = .ok energy := by
  obtain ⟨entry, rfl⟩ := eq_square_of_isSquare triangular.square
  have total (h : CouplingArray) : h.energy a = h.energyOf xs := by
    rw [energy, read, ok_bind]
  obtain ⟨number, positive⟩ := bitEnergy_finite bits triangular finite
  refine ⟨bitEnergy entry xs, ?_, ?_, number, positive, ?_⟩
  · rw [total, energyOf_bits bits]
  · rw [chosenSum_square, bitEnergy_eq_chosen bits triangular finite]
  · intro other squared otherFinite same
    obtain ⟨changed, rfl⟩ := eq_square_of_isSquare squared
    rw [total, energyOf_bits bits, bitEnergy_eq_of_set bits finite otherFinite]
    intro pair member
    obtain ⟨bounds, set, otherSet⟩ := mem_setPairs.mp member
    have agree := same pair.1 pair.2 set otherSet
    rw [read_square bounds.1 bounds.2, read_square bounds.1 bounds.2] at agree
    exact Except.ok.inj agree

theorem isFinite_grid {rows : List (List Float)}
    (finite : ∀ row ∈ rows, ∀ x ∈ row, x.isFinite = true) : (grid rows).IsFinite := by
  intro i j x read
  obtain ⟨row, rowFound, cellFound⟩ := read_grid.mp read
  exact finite row (List.mem_of_getElem? rowFound) x (List.mem_of_getElem? cellFound)

theorem energy_of_chosen_changed :
    ∃ energy, (grid [[1.0, 2.0], [0.0, 4.0]]).energy (.ofInts [1, 0]) = .ok energy ∧
      (grid [[1.0, -3.0], [0.0, 0.5]]).energy (.ofInts [1, 0]) = .ok energy ∧ energy ≠ -0.0 := by
  have triangular : (grid [[1.0, 2.0], [0.0, 4.0]]).IsTriangular 2 := by
    refine ⟨⟨_, rfl, rfl, by simp⟩, ?_⟩
    intro i j x order read
    obtain ⟨row, rowFound, cellFound⟩ := read_grid.mp read
    rcases i with _ | _ | i
    · cases order
    · cases Nat.lt_one_iff.mp order
      cases rowFound
      cases cellFound
      rfl
    · cases rowFound
  have finite : (grid [[1.0, 2.0], [0.0, 4.0]]).IsFinite := isFinite_grid (by
    simp only [List.forall_mem_cons]
    exact ⟨⟨rfl, rfl, List.forall_mem_nil _⟩, ⟨rfl, rfl, List.forall_mem_nil _⟩,
      List.forall_mem_nil _⟩)
  have otherFinite : (grid [[1.0, -3.0], [0.0, 0.5]]).IsFinite := isFinite_grid (by
    simp only [List.forall_mem_cons]
    exact ⟨⟨rfl, rfl, List.forall_mem_nil _⟩, ⟨rfl, rfl, List.forall_mem_nil _⟩,
      List.forall_mem_nil _⟩)
  have bits : IsBits [1, 0] := by simp [IsBits]
  obtain ⟨energy, run, -, -, positive, kept⟩ :=
    energy_of_chosen triangular finite (bits_ofInts [1, 0]) bits
  refine ⟨energy, run, kept _ ⟨_, rfl, rfl, by simp⟩ otherFinite ?_, positive⟩
  have first {k : Nat} (set : ([1, 0] : List Int).getD k 0 = 1) : k = 0 := by
    rcases k with _ | _ | k
    · rfl
    · cases set
    · cases set
  intro i j rowSet columnSet
  cases first rowSet
  cases first columnSet
  rfl

end BinaryQuadratic.CouplingArray
