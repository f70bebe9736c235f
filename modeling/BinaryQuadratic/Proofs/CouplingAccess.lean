import BinaryQuadratic.Proofs.BitEnergy
import BinaryQuadratic.Proofs.CouplingRows

/-!
Access to grids that are built from numbers. Whichever way they are built, they are square, so
that an index or an assignment that passes its check finds all the couplings that it asks for.
-/

namespace BinaryQuadratic.CouplingArray

open Assignment

theorem checkIndex_int (name : String) (size : Nat) (index : Int) :
    checkIndex name size (.int index) =
      if 0 ≤ index ∧ index < size then .ok () else .error (.violation (.outOfRange name)) := by
  have read : Value.toNumber (Datum.int index) = .ok (.int index) := rfl
  have inside : (Number.int index).inRange size = true ↔ 0 ≤ index ∧ index < size := by
    rw [Number.inRange_iff (.int index), Int.cast_nonneg_iff, Int.cast_lt]
  rw [checkIndex, read, ok_bind, if_congr inside rfl rfl]
  split
  · rfl
  · rfl

theorem dimension_square (side : Nat) (entry : Nat → Nat → Float) :
    (square side entry).dimension = .ok side := by
  rw [dimension, shape_square]
  rfl

theorem entry_square {side : Nat} (entry : Nat → Nat → Float) (row column : Int) :
    (square side entry).entry (.int row) (.int column) =
      if 0 ≤ row ∧ row < side then
        if 0 ≤ column ∧ column < side then .ok (entry row.toNat column.toNat)
        else .error (.violation (.outOfRange "column_index"))
      else .error (.violation (.outOfRange "row_index")) := by
  rw [CouplingArray.entry, dimension_square, ok_bind, checkIndex_int, checkIndex_int]
  by_cases rowBound : 0 ≤ row ∧ row < side
  · rw [if_pos rowBound, if_pos rowBound, ok_bind]
    by_cases columnBound : 0 ≤ column ∧ column < side
    · rw [if_pos columnBound, if_pos columnBound, ok_bind]
      exact read_square (by omega) (by omega)
    · rw [if_neg columnBound, if_neg columnBound]
      rfl
  · rw [if_neg rowBound, if_neg rowBound]
    rfl

theorem energy_length {a : Assignment} {xs : List Int} (read : a.bits = .ok xs) {side : Nat}
    (entry : Nat → Nat → Float) (other : xs.length ≠ side) :
    (square side entry).energy a = .error (.violation (.dataFormat .listNotSquare)) := by
  rw [energy, read, ok_bind, energyOf, energyIn, shape_square]
  simp only [List.head?_cons, Option.elim_some, ok_bind, ne_eq, other, not_false_eq_true, if_true]
  rfl

/-- Grids that are built from numbers, by their number of rows. The problem of a grid may have
been filled in any way. -/
inductive Constructed : CouplingArray → Nat → Prop
  | ofSequences {ν : Type} [Value ν] {v : ν} {rows : List (List ν)} {h : CouplingArray}
      (read : (Value.items v >>= fun items => items.mapM Value.items) = .ok rows)
      (numbers : ∀ row ∈ rows, ∀ cell ∈ row, IsNumber cell)
      (run : CouplingArray.ofSequences v = .ok h) : Constructed h rows.length
  | ofUniform {d : Datum} {h : CouplingArray}
      (numbers : ∀ row ∈ (listItems d).map listItems, ∀ cell ∈ row, IsNumber cell)
      (run : CouplingArray.ofUniform d = .ok h) : Constructed h (listItems d).length
  | ofProblem {p : Problem} {size : Nat} {h : CouplingArray} (sized : p.size = size)
      (run : p.toCouplings = .ok h) : Constructed h size

theorem Constructed.isTriangular {h : CouplingArray} {side : Nat} (built : h.Constructed side) :
    h.IsTriangular side := by
  cases built with
  | ofSequences read numbers run =>
      obtain ⟨items, itemsRead, read⟩ := bind_eq_ok.mp read
      rw [CouplingArray.ofSequences, itemsRead, ok_bind, read, ok_bind] at run
      exact ofRows_isTriangular numbers run
  | ofUniform numbers run => exact ofUniform_isTriangular numbers run
  | ofProblem sized run =>
      have triangular := Problem.toCouplings_isTriangular run
      rwa [sized, Int.toNat_natCast] at triangular

theorem entry_constructed {h : CouplingArray} {side : Nat} (square : h.IsSquare side)
    (row column : Int) :
    (h.entry (.int row) (.int column) = .error (.violation (.outOfRange "row_index")) ↔
      ¬(0 ≤ row ∧ row < side)) ∧
    (h.entry (.int row) (.int column) = .error (.violation (.outOfRange "column_index")) ↔
      (0 ≤ row ∧ row < side) ∧ ¬(0 ≤ column ∧ column < side)) ∧
    ((0 ≤ row ∧ row < side) ∧ (0 ≤ column ∧ column < side) →
      ∃ x, h.read row.toNat column.toNat = .ok x ∧ h.entry (.int row) (.int column) = .ok x) := by
  obtain ⟨entry, rfl⟩ := eq_square_of_isSquare square
  have apart : Violation.outOfRange "row_index" ≠ .outOfRange "column_index" := by decide
  rw [entry_square]
  by_cases rowBound : 0 ≤ row ∧ row < side
  · by_cases columnBound : 0 ≤ column ∧ column < side
    · rw [if_pos rowBound, if_pos columnBound]
      refine ⟨by simp [rowBound], by simp [columnBound], ?_⟩
      rintro -
      exact ⟨_, read_square (by omega) (by omega), rfl⟩
    · rw [if_pos rowBound, if_neg columnBound]
      refine ⟨by simp [rowBound, apart.symm], by simp [rowBound, columnBound], ?_⟩
      rintro ⟨-, inside⟩
      exact (columnBound inside).elim
  · rw [if_neg rowBound]
    refine ⟨by simp [rowBound], by simp [rowBound, apart], ?_⟩
    rintro ⟨inside, -⟩
    exact (rowBound inside).elim

theorem energy_constructed {h : CouplingArray} {side : Nat} (square : h.IsSquare side)
    {a : Assignment} {xs : List Int} (read : a.bits = .ok xs) (bits : IsBits xs) :
    (h.energy a = .error (.violation (.dataFormat .listNotSquare)) ↔ xs.length ≠ side) ∧
      (xs.length = side → ∃ x, h.energy a = .ok x) := by
  obtain ⟨entry, rfl⟩ := eq_square_of_isSquare square
  by_cases same : xs.length = side
  · have run : (CouplingArray.square side entry).energy a = .ok (bitEnergy entry xs) := by
      rw [energy, read, ok_bind, ← same, energyOf_bits bits]
    rw [run]
    exact ⟨by simp [same], fun _ => ⟨_, rfl⟩⟩
  · rw [energy_length read entry same]
    exact ⟨by simp [same], fun equal => (same equal).elim⟩

/-- A grid that is built from numbers is square and zero below the diagonal. Of two indices the
first is refused unless it is below the dimension, then the second, and all others have a coupling.
Bits have an energy unless their number is not the dimension. -/
theorem constructed_access {h : CouplingArray} {side : Nat} (built : h.Constructed side) :
    ∃ rows, h = .grid rows ∧ h.dimension = .ok side ∧ rows.length = side ∧
      (∀ row ∈ rows, row.length = side) ∧
      (∀ (i j : Nat) row x, j < i → rows[i]? = some row → row[j]? = some x → (x == 0.0) = true) ∧
      (∀ i j : Int,
        (h.entry (.int i) (.int j) = .error (.violation (.outOfRange "row_index")) ↔
          ¬(0 ≤ i ∧ i < side)) ∧
        (h.entry (.int i) (.int j) = .error (.violation (.outOfRange "column_index")) ↔
          (0 ≤ i ∧ i < side) ∧ ¬(0 ≤ j ∧ j < side)) ∧
        ((0 ≤ i ∧ i < side) ∧ (0 ≤ j ∧ j < side) →
          ∃ row x, rows[i.toNat]? = some row ∧ row[j.toNat]? = some x ∧
            h.entry (.int i) (.int j) = .ok x)) ∧
      ∀ a xs, a.bits = .ok xs → IsBits xs →
        (h.energy a = .error (.violation (.dataFormat .listNotSquare)) ↔ xs.length ≠ side) ∧
        (xs.length = side → ∃ x, h.energy a = .ok x) := by
  have triangular := built.isTriangular
  obtain ⟨rows, rfl, height, width⟩ := triangular.square
  have dimension : (grid rows).dimension = .ok side := congrArg Except.ok height
  refine ⟨rows, rfl, dimension, height, width, ?_, ?_, ?_⟩
  · intro i j row x order rowFound cellFound
    exact triangular.below i j x order (read_grid.mpr ⟨row, rowFound, cellFound⟩)
  · intro i j
    obtain ⟨rowRefused, columnRefused, found⟩ := entry_constructed triangular.square i j
    refine ⟨rowRefused, columnRefused, ?_⟩
    intro inside
    obtain ⟨x, cell, run⟩ := found inside
    obtain ⟨row, rowFound, cellFound⟩ := read_grid.mp cell
    exact ⟨row, x, rowFound, cellFound, run⟩
  · intro a xs read bits
    exact energy_constructed triangular.square read bits

theorem constructed_access_unordered :
    let rows : Datum := .list [.list [.int 1, .float Binary64.notANumber],
      .list [.bool false, .int 2]]
    ∃ h, ofSequences rows = .ok h ∧
      h.entry (.int (-1)) (.int 2) = .error (.violation (.outOfRange "row_index")) ∧
      h.entry (.int 1) (.int 2) = .error (.violation (.outOfRange "column_index")) ∧
      (∃ x, h.energy (.ofInts [1, 0]) = .ok x) ∧
      h.energy (.ofInts [1]) = .error (.violation (.dataFormat .listNotSquare)) := by
  intro rows
  obtain ⟨h, run⟩ : ∃ h, ofSequences rows = .ok h := by
    apply eq_ok_of_isOk
    decide +kernel
  have numbers : ∀ row ∈ [[Datum.int 1, .float Binary64.notANumber], [.bool false, .int 2]],
      ∀ cell ∈ row, IsNumber cell := by
    simp only [List.forall_mem_cons]
    exact ⟨⟨⟨_, rfl⟩, ⟨_, rfl⟩, nofun⟩, ⟨⟨_, rfl⟩, ⟨_, rfl⟩, nofun⟩, nofun⟩
  obtain ⟨_, -, -, -, -, -, entries, energies⟩ :=
    constructed_access (.ofSequences (v := rows) rfl numbers run)
  refine ⟨h, run, (entries (-1) 2).1.mpr (by simp), (entries 1 2).2.1.mpr (by simp), ?_, ?_⟩
  · exact (energies (.ofInts [1, 0]) _ (bits_ofInts _) (by simp [IsBits])).2 rfl
  · exact (energies (.ofInts [1]) _ (bits_ofInts _) (by simp [IsBits])).1.mpr (by simp)

end BinaryQuadratic.CouplingArray
