import BinaryQuadratic.Energy
import BinaryQuadratic.Problem
import BinaryQuadratic.Proofs.Success
import Mathlib.Data.List.Nodup
import Mathlib.Data.List.ProdSigma

/-!
Square grids by their entries, the energy on such a grid as a double loop over the indices, and
the grid of a problem.
-/

namespace BinaryQuadratic

namespace CouplingArray

def square (side : Nat) (entry : Nat → Nat → Float) : CouplingArray :=
  .grid ((List.range side).map fun i => (List.range side).map (entry i))

theorem square_congr {side : Nat} {entry other : Nat → Nat → Float}
    (same : ∀ i, i < side → ∀ j, j < side → entry i j = other i j) :
    square side entry = square side other := by
  apply congrArg CouplingArray.grid
  apply List.map_congr_left
  intro i rowMember
  apply List.map_congr_left
  intro j columnMember
  exact same i (List.mem_range.mp rowMember) j (List.mem_range.mp columnMember)

theorem shape_square (side : Nat) (entry : Nat → Nat → Float) :
    (square side entry).shape = [side, side] := by
  cases side with
  | zero => rfl
  | succ side =>
      simp only [shape, square, List.length_map, List.length_range, columns]
      rw [List.range_succ_eq_map]
      simp

theorem read_square {side : Nat} {entry : Nat → Nat → Float} {i j : Nat} (rowBound : i < side)
    (columnBound : j < side) : (square side entry).read i j = .ok (entry i j) := by
  simp [square, read, rowBound, columnBound]

theorem grid_eq_square {rows : List (List Float)} {side : Nat} (height : rows.length = side)
    (width : ∀ row ∈ rows, row.length = side) :
    .grid rows = square side fun i j => (rows.getD i []).getD j 0.0 := by
  apply congrArg CouplingArray.grid
  apply List.ext_getElem
  · simp [height]
  · intro i bound _
    have rowWidth := width rows[i] (List.getElem_mem bound)
    apply List.ext_getElem
    · simp [rowWidth]
    · intro j columnBound _
      simp [bound, columnBound]

variable {α : Type}

/-- The sum over all pairs of indices, row by row; rows of cells that are zero are left out. -/
def squareSum (arithmetic : Arithmetic α) (cell : Int → α) (side : Nat)
    (entry : Nat → Nat → Float) (xs : List Int) : α :=
  (List.range side).foldl (fun total i =>
    if xs.getD i 0 = 0 then total
    else (List.range side).foldl (fun sum j =>
      arithmetic.add sum (arithmetic.mul
        (arithmetic.mul (cell (xs.getD i 0)) (arithmetic.ofCoupling (entry i j)))
        (cell (xs.getD j 0)))) total) arithmetic.zero

def summedPairs (side : Nat) (xs : List Int) : List (Nat × Nat) :=
  (List.range side ×ˢ List.range side).filter fun pair => xs.getD pair.1 0 ≠ 0

theorem mem_summedPairs {side : Nat} {xs : List Int} {pair : Nat × Nat} :
    pair ∈ summedPairs side xs ↔
      (pair.1 < side ∧ pair.2 < side) ∧ xs.getD pair.1 0 ≠ 0 := by
  obtain ⟨i, j⟩ := pair
  simp [summedPairs]

theorem nodup_summedPairs (side : Nat) (xs : List Int) : (summedPairs side xs).Nodup :=
  (List.nodup_range.product List.nodup_range).filter _

def pairTerm (arithmetic : Arithmetic α) (cell : Int → α) (entry : Nat → Nat → Float)
    (xs : List Int) (pair : Nat × Nat) : α :=
  arithmetic.mul
    (arithmetic.mul (cell (xs.getD pair.1 0)) (arithmetic.ofCoupling (entry pair.1 pair.2)))
    (cell (xs.getD pair.2 0))

theorem squareSum_eq_foldl (arithmetic : Arithmetic α) (cell : Int → α) (side : Nat)
    (entry : Nat → Nat → Float) (xs : List Int) :
    squareSum arithmetic cell side entry xs =
      (summedPairs side xs).foldl
        (fun sum pair => arithmetic.add sum (pairTerm arithmetic cell entry xs pair))
        arithmetic.zero := by
  have rows : List.range side ×ˢ List.range side = (List.range side).flatMap fun i =>
      (List.range side).map fun j => (i, j) := rfl
  rw [summedPairs, List.foldl_filter, rows, List.foldl_flatMap, squareSum]
  simp only [List.foldl_map, decide_eq_true_eq]
  apply congrArg fun step => List.foldl step arithmetic.zero _
  funext total i
  by_cases zero : xs.getD i 0 = 0
  · simp only [zero, if_true, ne_eq, not_true_eq_false, if_false, List.foldl_fixed]
  · simp only [zero, if_false, ne_eq, not_false_eq_true, if_true, pairTerm]

theorem zipIdx_eq_map_range (xs : List Int) :
    xs.zipIdx = (List.range xs.length).map fun i => (xs.getD i 0, i) := by
  apply List.ext_getElem
  · simp
  · intro i bound _
    have inside : i < xs.length := by simpa using bound
    simp [inside]

theorem term_square {arithmetic : Arithmetic α} {side : Nat} {entry : Nat → Nat → Float}
    {i j : Nat} (rowBound : i < side) (columnBound : j < side) (x y : Int) :
    (square side entry).term arithmetic i j x y = contribution arithmetic x (entry i j) y := by
  simp [square, term, rowBound, columnBound]

theorem energyIn_square {arithmetic : Arithmetic α} {cell : Int → α} {xs : List Int}
    (cells : ∀ x ∈ xs, arithmetic.ofCell x = .ok (cell x)) (entry : Nat → Nat → Float) :
    (square xs.length entry).energyIn arithmetic xs =
      .ok (squareSum arithmetic cell xs.length entry xs) := by
  have cellAt (i : Nat) (bound : i < xs.length) :
      arithmetic.ofCell (xs.getD i 0) = .ok (cell (xs.getD i 0)) := by
    have inside : xs.getD i 0 = xs[i] := by simp [bound]
    rw [inside]
    exact cells xs[i] (List.getElem_mem bound)
  simp only [energyIn, shape_square, List.head?_cons, Option.elim_some, ok_bind, ne_eq,
    not_true_eq_false, if_false, zipIdx_eq_map_range, List.foldlM_map, addRow]
  apply foldlM_eq_ok_foldl
  intro i rowMember total
  have rowBound := List.mem_range.mp rowMember
  split
  · rfl
  · apply foldlM_eq_ok_foldl
    intro j columnMember sum
    have columnBound := List.mem_range.mp columnMember
    rw [term_square rowBound columnBound, contribution, cellAt i rowBound, ok_bind,
      cellAt j columnBound]
    rfl

end CouplingArray

namespace Problem

def HasCoefficients (p : Problem) (property : Float → Prop) : Prop :=
  ∀ term ∈ p.terms, ∃ x, Value.toFloat term.2 = .ok x ∧ property x

/-- The coupling of a pair, zero in place of one that cannot be read. -/
def weight (p : Problem) (i j : Nat) : Float :=
  match p.couplingAt i j with
  | .ok x => x
  | .error _ => 0.0

theorem coupling_eq_toFloat {d : Datum} {x : Float} (read : Value.toFloat d = .ok x) :
    CouplingArray.coupling d = .ok x := by
  unfold CouplingArray.coupling
  split
  · cases read
  · cases read
  · exact read

theorem couplingAt_of_lookup {p : Problem} {i j : Nat} {d : Datum} {x : Float} (order : i ≤ j)
    (found : p.lookup (i, j) = some d) (read : Value.toFloat d = .ok x) :
    p.couplingAt i j = .ok x := by
  rw [couplingAt, if_pos order, found]
  split
  · rename_i none
    cases none
  · rename_i null
    cases null
    cases read
  · rename_i same
    cases same
    exact coupling_eq_toFloat read

theorem couplingAt_of_absent {p : Problem} {i j : Nat} (absent : p.lookup (i, j) = none) :
    p.couplingAt i j = .ok 0.0 := by
  rw [couplingAt, absent]
  split <;> rfl

theorem couplingAt_below {p : Problem} {i j : Nat} (order : j < i) :
    p.couplingAt i j = .ok 0.0 := by
  rw [couplingAt, if_neg (by omega)]

theorem mem_terms_of_lookup {p : Problem} {pair : Nat × Nat} {d : Datum}
    (found : p.lookup pair = some d) : (pair, d) ∈ p.terms := by
  obtain ⟨⟨other, value⟩, first, rfl⟩ := Option.map_eq_some_iff.mp found
  have same : other = pair := by simpa using List.find?_some first
  rw [← same]
  exact List.mem_of_find?_eq_some first

theorem couplingAt_cases {p : Problem} {property : Float → Prop}
    (coefficients : p.HasCoefficients property) (i j : Nat) :
    ∃ x, p.couplingAt i j = .ok x ∧ (x = 0.0 ∨ property x) := by
  by_cases order : i ≤ j
  · cases found : p.lookup (i, j) with
    | none => exact ⟨0.0, couplingAt_of_absent found, .inl rfl⟩
    | some d =>
        obtain ⟨x, read, holds⟩ := coefficients _ (mem_terms_of_lookup found)
        exact ⟨x, couplingAt_of_lookup order found read, .inr holds⟩
  · exact ⟨0.0, couplingAt_below (by omega), .inl rfl⟩

theorem couplingAt_eq_weight {p : Problem} {property : Float → Prop}
    (coefficients : p.HasCoefficients property) (i j : Nat) :
    p.couplingAt i j = .ok (p.weight i j) := by
  obtain ⟨x, read, _⟩ := couplingAt_cases coefficients i j
  rw [weight, read]

theorem weight_cases {p : Problem} {property : Float → Prop}
    (coefficients : p.HasCoefficients property) (i j : Nat) :
    p.weight i j = 0.0 ∨ property (p.weight i j) := by
  obtain ⟨x, read, holds⟩ := couplingAt_cases coefficients i j
  rw [weight, read]
  exact holds

theorem weight_below (p : Problem) {i j : Nat} (order : j < i) : p.weight i j = 0.0 := by
  rw [weight, couplingAt_below order]

theorem toCouplings_eq {p : Problem} {entry : Nat → Nat → Float}
    (couplings : ∀ i j, p.couplingAt i j = .ok (entry i j)) :
    p.toCouplings = checkSide p.size >>= fun _ => .ok (.square p.size.toNat entry) := by
  have row (i : Nat) : (List.range p.size.toNat).mapM (fun j => p.couplingAt i j) =
      .ok ((List.range p.size.toNat).map (entry i)) :=
    mapM_eq_ok_map fun j _ => couplings i j
  have grid : ((List.range p.size.toNat).mapM fun i =>
      (List.range p.size.toNat).mapM fun j => p.couplingAt i j) =
      .ok ((List.range p.size.toNat).map fun i => (List.range p.size.toNat).map (entry i)) :=
    mapM_eq_ok_map fun i _ => row i
  simp only [toCouplings, grid, map_ok]
  rfl

theorem checkSide_ok {side : Nat} (fits : (side : Int) < sideMemory) :
    checkSide side = .ok () := by
  have limit : sideMemory = 131072 := rfl
  have word : Number.isWord side = true := by
    simp only [Number.isWord, Bool.and_eq_true, decide_eq_true_eq]
    omega
  have larger : sideMemory < sideLimit := by decide
  simp only [checkSide, word, Bool.not_true, Bool.false_eq_true, if_false]
  rw [if_neg (by omega), if_neg (by omega), if_neg (by omega)]
  rfl

theorem toCouplings_ok {p : Problem} {property : Float → Prop} {side : Nat}
    (coefficients : p.HasCoefficients property) (size : p.size = side)
    (fits : (side : Int) < sideMemory) : p.toCouplings = .ok (.square side p.weight) := by
  rw [toCouplings_eq (couplingAt_eq_weight coefficients), size, checkSide_ok fits]
  rfl

end Problem

end BinaryQuadratic
