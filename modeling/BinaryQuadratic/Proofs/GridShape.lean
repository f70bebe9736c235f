import BinaryQuadratic.CouplingArray.Survey

/-!
The shape that a survey finds for rows of scalars that are equally long. A row without items
settles the survey as a scalar does.
-/

namespace BinaryQuadratic.Survey

def ofGrid (height width : Nat) : Survey := ⟨2, [height, width], true, false⟩

theorem visitItems_leaves (height width : Nat) (leaves : List Scalar) :
    visitItems 2 (leaves.map Datum.scalar) (ofGrid height width) = ofGrid height width := by
  induction leaves with
  | nil => rw [List.map_nil, visitItems]
  | cons leaf rest ih =>
      have kept : visit 2 (Datum.scalar leaf) (ofGrid height width) = ofGrid height width := by
        rw [visit]
        · rfl
        · simp
      rw [List.map_cons, visitItems, kept, ih]

theorem visit_row (height : Nat) (row : List Scalar) :
    visit 1 (.list (row.map Datum.scalar)) (ofGrid height row.length) =
      ofGrid height row.length := by
  have met : (ofGrid height row.length).meetList 1 (row.map Datum.scalar).length =
      (ofGrid height row.length, true) := by
    simp [meetList, ofGrid]
  rw [visit, if_neg (by simp [ofGrid]), met]
  cases row with
  | nil => rfl
  | cons leaf rest => exact visitItems_leaves height _ (leaf :: rest)

theorem visitItems_rows {height width : Nat} {rows : List (List Scalar)}
    (widths : ∀ row ∈ rows, row.length = width) :
    visitItems 1 (rows.map fun row => .list (row.map Datum.scalar)) (ofGrid height width) =
      ofGrid height width := by
  induction rows with
  | nil => rw [List.map_nil, visitItems]
  | cons row rest ih =>
      rw [List.forall_mem_cons] at widths
      have kept := visit_row height row
      rw [widths.1] at kept
      rw [List.map_cons, visitItems, kept, ih widths.2]

theorem visit_firstRow (height : Nat) (row : List Scalar) :
    visit 1 (.list (row.map Datum.scalar)) ⟨axisLimit, [height], false, false⟩ =
      ofGrid height row.length := by
  have met : meetList ⟨axisLimit, [height], false, false⟩ 1 (row.map Datum.scalar).length =
      (⟨axisLimit, [height, row.length], false, false⟩, true) := by
    rw [List.length_map]
    rfl
  rw [visit, if_neg (by simp [axisLimit]), met]
  cases row with
  | nil => rfl
  | cons leaf rest =>
      have settles : visit 2 (Datum.scalar leaf)
          ⟨axisLimit, [height, (leaf :: rest).length], false, false⟩ =
            ofGrid height (leaf :: rest).length := by
        rw [visit]
        · rfl
        · simp
      simp only [List.map_cons, List.isEmpty_cons, Bool.not_true, Bool.false_eq_true, if_false]
      rw [visitItems, settles, visitItems_leaves]

theorem shapeOf_rows {width : Nat} {rows : List (List Scalar)} (present : rows ≠ [])
    (widths : ∀ row ∈ rows, row.length = width) :
    shapeOf (.list (rows.map fun row => .list (row.map Datum.scalar))) =
      .ok [rows.length, width] := by
  cases rows with
  | nil => exact (present rfl).elim
  | cons first rest =>
      rw [List.forall_mem_cons] at widths
      have visited : visit 0 (.list ((first :: rest).map fun row => .list (row.map Datum.scalar)))
          start = ofGrid (first :: rest).length width := by
        have met : start.meetList 0
            ((first :: rest).map fun row => Datum.list (row.map Datum.scalar)).length =
              (⟨axisLimit, [(first :: rest).length], false, false⟩, true) := by
          rw [List.length_map]
          rfl
        rw [visit, if_neg (by simp [start, axisLimit]), met]
        simp only [List.map_cons, List.isEmpty_cons, Bool.not_true, Bool.false_eq_true, if_false]
        rw [visitItems, visit_firstRow, widths.1, visitItems_rows widths.2]
      simp only [shapeOf, visited]
      rfl

end BinaryQuadratic.Survey
