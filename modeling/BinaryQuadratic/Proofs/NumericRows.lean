import BinaryQuadratic.Proofs.CouplingRows

/-!
Rows of numbers as square grids. The checks of the rows are all that can fail, and a grid that is
made has the numbers of the rows.
-/

namespace BinaryQuadratic.CouplingArray

variable {ν : Type} [Value ν]

/-- A value that is a number and has a nearest binary64 number; of the numbers only integers
beyond the largest one do not. -/
def IsReal (v : ν) : Prop := ∃ number x, Value.toNumber v = .ok number ∧ number.toFloat = .ok x

theorem IsReal.isNumber {v : ν} (real : IsReal v) : IsNumber v := by
  obtain ⟨number, -, read, -⟩ := real
  exact ⟨number, read⟩

theorem IsReal.toFloat {v : ν} (real : IsReal v) : ∃ x, Value.toFloat v = .ok x := by
  obtain ⟨number, x, read, converted⟩ := real
  rw [toFloat_number read]
  exact ⟨x, converted⟩

section Rows

variable {rows : List (List ν)}

theorem numbers_of_real (real : ∀ row ∈ rows, ∀ cell ∈ row, IsReal cell) :
    ∀ row ∈ rows, ∀ cell ∈ row, IsNumber cell :=
  fun row rowMember cell member => (real row rowMember cell member).isNumber

theorem floats_of_real (real : ∀ row ∈ rows, ∀ cell ∈ row, IsReal cell) :
    ∃ floats, (rows.mapM fun row => row.mapM Value.toFloat) = .ok floats := by
  apply mapM_succeeds
  intro row rowMember
  apply mapM_succeeds
  intro cell member
  exact (real row rowMember cell member).toFloat

theorem ofRows_error_iff {floats : List (List Float)} {fault : Fault}
    (numbers : ∀ row ∈ rows, ∀ cell ∈ row, IsNumber cell)
    (read : (rows.mapM fun row => row.mapM Value.toFloat) = .ok floats) :
    ofRows rows = .error fault ↔ checkRows rows.length 0 rows = .error fault := by
  cases checked : checkRows rows.length 0 rows with
  | ok =>
      rw [ofRows_of_checkRows numbers checked, read, map_ok]
      exact ⟨nofun, nofun⟩
  | error found =>
      rw [ofRows, checked]
      constructor
      · rintro ⟨rfl⟩
        rfl
      · rintro ⟨rfl⟩
        rfl

theorem read_of_cell {floats : List (List Float)} {i j : Nat} {row : List ν} {cell : ν}
    (read : (rows.mapM fun row => row.mapM Value.toFloat) = .ok floats)
    (rowFound : rows[i]? = some row) (found : row[j]? = some cell) :
    ∃ x, Value.toFloat cell = .ok x ∧ (CouplingArray.grid floats).read i j = .ok x := by
  obtain ⟨cells, stored, rowRead⟩ := result_of_mapM_eq_ok read rowFound
  obtain ⟨x, inside, converted⟩ := result_of_mapM_eq_ok rowRead found
  exact ⟨x, converted, read_grid.mpr ⟨cells, stored, inside⟩⟩

/-- Of rows of numbers a grid is made exactly if each row is as long as there are rows and zero
before its own column. It holds the numbers as binary64 numbers. Otherwise the first row that does
not fit decides which of the two violations is met, and nothing else can fail. -/
theorem ofSequences_numbers {v : ν}
    (read : (Value.items v >>= fun found => found.mapM Value.items) = .ok rows)
    (real : ∀ row ∈ rows, ∀ cell ∈ row, IsReal cell) :
    ((∃ h, ofSequences v = .ok h) ↔
      ∀ (i : Nat) row, rows[i]? = some row → RowFits rows.length i row) ∧
    (∀ h, ofSequences v = .ok h → h.IsSquare rows.length ∧
      ∀ (i j : Nat) row cell, rows[i]? = some row → row[j]? = some cell →
        ∃ x, Value.toFloat cell = .ok x ∧ h.read i j = .ok x) ∧
    ∀ fault, ofSequences v = .error fault ↔
      ∃ (i : Nat) (row : List ν), rows[i]? = some row ∧ ¬RowFits rows.length i row ∧
        (∀ (k : Nat) earlier, k < i → rows[k]? = some earlier → RowFits rows.length k earlier) ∧
        fault = .violation (.dataFormat
          (if row.length ≠ rows.length then .listNotSquare else .lowerTriangleEntryNotZero)) := by
  have numbers := numbers_of_real real
  obtain ⟨floats, mapped⟩ := floats_of_real real
  have start : ofSequences v = ofRows rows := by
    obtain ⟨items, itemsRead, rowsRead⟩ := bind_eq_ok.mp read
    rw [ofSequences, itemsRead, ok_bind, rowsRead, ok_bind]
  have checks : checkRows rows.length 0 rows = .ok () ↔
      ∀ (i : Nat) row, rows[i]? = some row → RowFits rows.length i row := by
    rw [checkRows_eq_ok_iff]
    simp only [Nat.zero_add]
  rw [start, ← checks]
  refine ⟨⟨?_, ?_⟩, ?_, ?_⟩
  · rintro ⟨h, run⟩
    obtain ⟨_, checked, -⟩ := bind_eq_ok.mp run
    exact checked
  · intro checked
    exact ⟨.grid floats, by rw [ofRows_of_checkRows numbers checked, mapped, map_ok]⟩
  · intro h run
    obtain ⟨found, same, rfl, height, width⟩ := ofRows_grid numbers run
    refine ⟨⟨found, rfl, height, width⟩, ?_⟩
    intro i j row cell
    exact read_of_cell same
  · intro fault
    rw [ofRows_error_iff numbers mapped, checkRows_eq_error_iff]
    simp only [Nat.zero_add, misfit]

theorem ofSequences_numbers_mixed :
    (∃ h, ofSequences (Datum.list [.list [.float Binary64.notANumber, .int 2],
      .list [.bool false, .float (1.0 / 0.0)]]) = .ok h) ∧
    ofSequences (Datum.list [.list [.int 1, .int 2, .int 3], .list [.bool true, .int 5, .int 6],
      .list [.int 7]]) = .error (.violation (.dataFormat .lowerTriangleEntryNotZero)) := by
  have whole (n : Int) (x : Float) (run : (Number.int n).toFloat = .ok x) :
      IsReal (Datum.int n) := ⟨.int n, x, rfl, run⟩
  have firstRow (row : List Datum) (side : Nat) (width : row.length = side) :
      RowFits side 0 row := ⟨width, nofun⟩
  constructor
  · have real : ∀ row ∈ [[Datum.float Binary64.notANumber, .int 2],
        [.bool false, .float (1.0 / 0.0)]], ∀ cell ∈ row, IsReal cell := by
      simp only [List.forall_mem_cons]
      exact ⟨⟨⟨.float _, _, rfl, rfl⟩, whole 2 2.0 rfl, nofun⟩,
        ⟨⟨.int 0, 0.0, rfl, rfl⟩, ⟨.float _, _, rfl, rfl⟩, nofun⟩, nofun⟩
    apply (ofSequences_numbers rfl real).1.mpr
    rintro (_ | _ | i) row found
    · cases found
      exact firstRow _ 2 rfl
    · cases found
      refine ⟨rfl, ?_⟩
      rintro (_ | c) v before cell
      · cases cell
        rfl
      · omega
    · cases found
  · have real : ∀ row ∈ [[Datum.int 1, .int 2, .int 3], [.bool true, .int 5, .int 6], [.int 7]],
        ∀ cell ∈ row, IsReal cell := by
      simp only [List.forall_mem_cons]
      exact ⟨⟨whole 1 1.0 rfl, whole 2 2.0 rfl, whole 3 3.0 rfl, nofun⟩,
        ⟨⟨.int 1, 1.0, rfl, rfl⟩, whole 5 5.0 rfl, whole 6 6.0 rfl, nofun⟩,
        ⟨whole 7 7.0 rfl, nofun⟩, nofun⟩
    apply ((ofSequences_numbers rfl real).2.2 _).mpr
    refine ⟨1, _, rfl, ?_, ?_, rfl⟩
    · intro fits
      cases fits.zeros 0 (.bool true) (by omega) rfl
    · intro k earlier order found
      have first : k = 0 := by omega
      subst first
      cases found
      exact firstRow _ 3 rfl

end Rows

end BinaryQuadratic.CouplingArray
