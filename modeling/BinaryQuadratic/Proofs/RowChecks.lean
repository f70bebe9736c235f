import BinaryQuadratic.CouplingArray
import BinaryQuadratic.Proofs.Success

/-!
The checks of the rows of a square grid, and the row that decides the violation when one of them
fails.
-/

namespace BinaryQuadratic.CouplingArray

variable {ν : Type} [Value ν]

structure RowFits (side column : Nat) (row : List ν) : Prop where
  width : row.length = side
  zeros : ∀ c v, c < column → row[c]? = some v → Value.equalsInt v 0 = true

def misfit (side : Nat) (row : List ν) : Fault :=
  .violation (.dataFormat
    (if row.length ≠ side then .listNotSquare else .lowerTriangleEntryNotZero))

theorem take_zero_iff {column : Nat} {row : List ν} :
    ((row.take column).any fun v => !Value.equalsInt v 0) = false ↔
      ∀ c v, c < column → row[c]? = some v → Value.equalsInt v 0 = true := by
  rw [List.any_eq_false]
  constructor
  · intro zeros c v before found
    have member : v ∈ row.take column := by
      apply List.mem_of_getElem? (i := c)
      rw [List.getElem?_take_of_lt before, found]
    simpa using zeros v member
  · intro zeros v member
    obtain ⟨c, found⟩ := List.mem_iff_getElem?.mp member
    rw [List.getElem?_take] at found
    split at found
    · rename_i before
      simp [zeros c v before found]
    · cases found

theorem checkRows_cons_of_fits {side column : Nat} {row : List ν} (fits : RowFits side column row)
    (rest : List (List ν)) :
    checkRows side column (row :: rest) = checkRows side (column + 1) rest := by
  rw [checkRows, if_neg (not_not_intro fits.width), take_zero_iff.mpr fits.zeros]
  rfl

theorem checkRows_cons_of_misfit {side column : Nat} {row : List ν}
    (broken : ¬RowFits side column row) (rest : List (List ν)) :
    checkRows side column (row :: rest) = .error (misfit side row) := by
  rw [checkRows, misfit]
  by_cases width : row.length = side
  · have nonzero : ((row.take column).any fun v => !Value.equalsInt v 0) = true := by
      rw [← Bool.not_eq_false, take_zero_iff]
      exact fun zeros => broken ⟨width, zeros⟩
    simp only [width, ne_eq, not_true_eq_false, if_false, nonzero, if_true]
  · simp only [ne_eq, width, not_false_eq_true, if_true]

theorem checkRows_eq_ok_iff {side column : Nat} {rows : List (List ν)} :
    checkRows side column rows = .ok () ↔
      ∀ (i : Nat) row, rows[i]? = some row → RowFits side (column + i) row := by
  induction rows generalizing column with
  | nil => simp [checkRows]
  | cons first rest ih =>
      by_cases fits : RowFits side column first
      · rw [checkRows_cons_of_fits fits, ih]
        constructor
        · intro others i row found
          cases i with
          | zero =>
              cases found
              exact fits
          | succ i =>
              rw [← Nat.succ_add_eq_add_succ]
              exact others i row found
        · intro all i row found
          rw [Nat.succ_add_eq_add_succ]
          exact all (i + 1) row found
      · rw [checkRows_cons_of_misfit fits]
        refine ⟨nofun, ?_⟩
        intro all
        exact (fits (all 0 first rfl)).elim

/-- The checks fail on the first row that does not fit, and say what is wrong with it. -/
theorem checkRows_eq_error_iff {side column : Nat} {rows : List (List ν)} {fault : Fault} :
    checkRows side column rows = .error fault ↔
      ∃ i row, rows[i]? = some row ∧ ¬RowFits side (column + i) row ∧
        (∀ k earlier, k < i → rows[k]? = some earlier → RowFits side (column + k) earlier) ∧
        fault = misfit side row := by
  induction rows generalizing column with
  | nil => simp [checkRows]
  | cons first rest ih =>
      by_cases fits : RowFits side column first
      · rw [checkRows_cons_of_fits fits, ih]
        constructor
        · rintro ⟨i, row, found, broken, before, rfl⟩
          refine ⟨i + 1, row, found, ?_, ?_, rfl⟩
          · rwa [← Nat.succ_add_eq_add_succ]
          · intro k earlier order stored
            cases k with
            | zero =>
                cases stored
                exact fits
            | succ k =>
                rw [← Nat.succ_add_eq_add_succ]
                exact before k earlier (by omega) stored
        · rintro ⟨i, row, found, broken, before, rfl⟩
          cases i with
          | zero =>
              cases found
              exact (broken fits).elim
          | succ i =>
              refine ⟨i, row, found, ?_, ?_, rfl⟩
              · rwa [Nat.succ_add_eq_add_succ]
              · intro k earlier order stored
                rw [Nat.succ_add_eq_add_succ]
                exact before (k + 1) earlier (by omega) stored
      · rw [checkRows_cons_of_misfit fits]
        constructor
        · rintro ⟨rfl⟩
          exact ⟨0, first, rfl, fits, nofun, rfl⟩
        · rintro ⟨i, row, found, -, before, rfl⟩
          cases i with
          | zero =>
              cases found
              rfl
          | succ i => exact (fits (before 0 first (by omega) rfl)).elim

theorem width_of_checkRows {rows : List (List ν)} {side : Nat}
    (checked : checkRows side 0 rows = .ok ()) : ∀ row ∈ rows, row.length = side := by
  intro row member
  obtain ⟨i, found⟩ := List.mem_iff_getElem?.mp member
  exact (checkRows_eq_ok_iff.mp checked i row found).width

end BinaryQuadratic.CouplingArray
